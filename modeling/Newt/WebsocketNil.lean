import Newt.WebsocketClientSafety

/-!
# Uses of the websocket connection

`SendMessage`, `sendPing` and `Close` use `c.conn` while the read pump may set it to nil
in `reconnect`.  The pump does so under `writeMux`, and a ping tests the field again once
it has the lock.  `SendMessage` and `Close` test it before they take the lock only, and
`Close` uses it once more after it has released the lock.

A goroutine relies on the field from its last test to its last use.  Those that hold the
lock meanwhile are safe; the others are safe as long as the pump does not clear the field
before them.
-/

namespace Newt.Websocket

open List Client Goroutine Runs Option

def PingPC.holdsLock : PingPC → Bool
  | .retest | .write | .unlock _ | .testAgain | .closeConn | .unlockAgain => true
  | _ => false

def PumpPC.holdsLock : PumpPC → Bool
  | .retest | .closeAgain | .clear | .unlock => true
  | _ => false

def ClosePC.holdsLock : ClosePC → Bool
  | .write | .unlock => true
  | _ => false

def SendPC.holdsLock : SendPC → Bool
  | .write | .unlock _ => true
  | _ => false

/-- Between `writeMux.Lock()` and `writeMux.Unlock()`. -/
def Goroutine.holdsLock : Goroutine → Bool
  | .connectWithRetry _ => false
  | .pingMonitor _ pc | .readPump _ pc | .close pc | .sendMessage pc => pc.holdsLock

/-- A sender or closer writes on the connection in the field next. -/
def Goroutine.writes : Goroutine → Bool
  | .pingMonitor _ .write | .close .write | .sendMessage .write => true
  | _ => false

/-- A sender or closer uses the connection in the field next. -/
def Goroutine.uses : Goroutine → Bool
  | .pingMonitor _ .closeConn | .close .closeConn => true
  | g => g.writes

/-- Past the last test of the field and not past its last use. -/
def Goroutine.relies : Goroutine → Bool
  | .pingMonitor _ .write | .pingMonitor _ .closeConn => true
  | .close pc => pc.pastTest
  | .sendMessage .lock | .sendMessage .write => true
  | _ => false

def Goroutine.isPing : Goroutine → Bool
  | .pingMonitor _ _ => true
  | _ => false

/-- The read pump sets the field to nil next. -/
def Goroutine.atClear : Goroutine → Bool
  | .readPump _ .clear => true
  | _ => false

namespace Client

/-- The read pump clears the field only when no call of `SendMessage` or `Close` relies on
it without holding the lock. -/
def ClearsUnwatched (s : Client) : Event → Prop
  | .go i _ => s.goroutines[i]?.any atClear = true →
      ∀ g ∈ s.goroutines, g.relies = true → g.holdsLock = true
  | _ => True

instance (s : Client) : ∀ e, Decidable (s.ClearsUnwatched e)
  | .go _ _ => inferInstanceAs (Decidable (_ → ∀ g ∈ s.goroutines, _))
  | .callClose | .callSendMessage => isTrue trivial

/-- How the senders and closers find the connection. -/
structure UsesGuarded (s : Client) : Prop where
  /-- None of them is about to use a nil connection. -/
  notNil : ∀ g ∈ s.goroutines, g.uses = true → s.conn.isSome = true
  /-- The one that is about to write is the only goroutine that holds the lock. -/
  locked : ∀ g ∈ s.goroutines, g.writes = true →
    s.writeMux = true ∧ g.holdsLock = true ∧ s.goroutines.countP holdsLock = 1

/-- The lock is held by one goroutine or by none. -/
def Exclusive (s : Client) : Prop :=
  s.goroutines.countP holdsLock = s.writeMux.toNat

/-- The goroutines of a kind that rely on the field find a connection there. -/
def Guarded (kind : Goroutine → Bool) (s : Client) : Prop :=
  ∀ g ∈ s.goroutines, kind g = true → g.relies = true → s.conn.isSome = true

variable {s s' t : Client} {g g' : Goroutine} {i : Nat} {choice : Choice}

theorem relies_of_uses (h : g.uses = true) : g.relies = true := by
  cases g with
  | connectWithRetry pc | readPump k pc => cases h
  | pingMonitor k pc | close pc | sendMessage pc => cases pc <;> first | rfl | cases h

theorem holdsLock_of_writes (h : g.writes = true) : g.holdsLock = true := by
  cases g with
  | connectWithRetry pc | readPump k pc => cases h
  | pingMonitor k pc | close pc | sendMessage pc => cases pc <;> first | rfl | cases h

/-- A ping relies on the field under the lock only. -/
theorem holdsLock_of_isPing (hping : g.isPing = true) (h : g.relies = true) :
    g.holdsLock = true := by
  cases g with
  | pingMonitor k pc => cases pc <;> first | rfl | cases h
  | connectWithRetry pc | readPump k pc | close pc | sendMessage pc => cases hping

theorem atClear_holdsLock (h : g.atClear = true) : g.holdsLock = true ∧ g.relies = false := by
  cases g with
  | readPump k pc => cases pc <;> first | exact ⟨rfl, rfl⟩ | cases h
  | connectWithRetry pc | pingMonitor k pc | close pc | sendMessage pc => cases h

theorem started_holdsLock (h : g.started = true) : g.holdsLock = false ∧ g.relies = false := by
  cases g with
  | connectWithRetry pc => exact ⟨rfl, rfl⟩
  | pingMonitor k pc | readPump k pc | close pc
  | sendMessage pc => cases pc <;> first | exact ⟨rfl, rfl⟩ | cases h

/-! ## What a step does to the lock and to the field -/

/-- A goroutine moves from `g` to `g'`. -/
structure Effect (s : Client) (g : Goroutine) (s' : Client) (g' : Goroutine) : Prop where
  lock : (g.holdsLock = true → s.writeMux = true) →
    s'.writeMux.toNat + g.holdsLock.toNat = s.writeMux.toNat + g'.holdsLock.toNat
  conn : g.atClear = false → s.conn.isSome = true → s'.conn.isSome = true
  relies : g'.relies = true → g.relies = true ∨ g.atClear = false ∧ s.conn.isSome = true
  isPing : g'.isPing = g.isPing

/-- Neither the lock nor the field changes. -/
theorem Effect.stay (hconn : s'.conn = s.conn) (hmux : s'.writeMux = s.writeMux)
    (hholds : g'.holdsLock = g.holdsLock)
    (hrelies : g'.relies = true → g.relies = true ∨ g.atClear = false ∧ s.conn.isSome = true)
    (hping : g'.isPing = g.isPing) : Effect s g s' g' := by
  refine ⟨?_, ?_, hrelies, hping⟩
  · intro _
    rw [hmux, hholds]
  · intro _ hsome
    rw [hconn]
    exact hsome

/-- The goroutine takes the lock. -/
theorem Effect.acquire {α : Type} {pc : α} {r : Client × α}
    (h : s.lock.map (fun u => (u, pc)) = some r) (hg : g.holdsLock = false)
    (hg' : g'.holdsLock = true)
    (hrelies : g'.relies = true → g.relies = true ∨ g.atClear = false ∧ s.conn.isSome = true)
    (hping : g'.isPing = g.isPing) : Effect s g r.1 g' := by
  have hfree : s.writeMux = false := by
    obtain ⟨u, hu, -⟩ := map_eq_some_iff.mp h
    unfold Client.lock at hu
    split at hu
    · cases hu
    · next hmux => exact Bool.eq_false_iff.mpr hmux
  rw [lock_eq h]
  refine ⟨?_, ?_, hrelies, hping⟩
  · intro _
    rw [hg, hg', hfree]
    rfl
  · exact fun _ hsome => hsome

/-- The goroutine releases the lock. -/
theorem Effect.release (hg : g.holdsLock = true) (hg' : g'.holdsLock = false)
    (hrelies : g'.relies = true → g.relies = true ∨ g.atClear = false ∧ s.conn.isSome = true)
    (hping : g'.isPing = g.isPing) : Effect s g s.unlock g' := by
  refine ⟨?_, ?_, hrelies, hping⟩
  · intro hheld
    rw [hg, hg', hheld hg]
    rfl
  · exact fun _ hsome => hsome

/-- `connectWithRetry` neither takes the lock nor relies on the field. -/
theorem Effect.connect {pc pc' : ConnectPC} (hconn : s'.conn = s.conn)
    (hmux : s'.writeMux = s.writeMux) :
    Effect s (.connectWithRetry pc) s' (.connectWithRetry pc') :=
  .stay hconn hmux rfl (nomatch ·) rfl

/-- The pump is the one that clears the field, and does not count as relying on it. -/
theorem Effect.pump {k : Nat} {pc pc' : PumpPC} (hconn : s'.conn = s.conn)
    (hmux : s'.writeMux = s.writeMux)
    (hholds : (Goroutine.readPump k pc').holdsLock = (Goroutine.readPump k pc).holdsLock) :
    Effect s (.readPump k pc) s' (.readPump k pc') :=
  .stay hconn hmux hholds (nomatch ·) rfl

theorem connectWithRetry_locking {pc : ConnectPC} {r : Client × ConnectPC}
    (h : s.connectWithRetry pc choice = some r) :
    Effect s (.connectWithRetry pc) r.1 (.connectWithRetry r.2) := by
  cases pc with
  | select | dial | sleep | startPump | onConnect =>
    cases choice <;> cases h <;> exact .connect rfl rfl
  | assign =>
    cases choice <;> cases h
    exact ⟨fun _ => rfl, fun _ _ => rfl, (nomatch ·), rfl⟩
  | startPing =>
    cases choice with
    | next => rcases deref_eq h with ⟨-, rfl⟩ | ⟨j, -, ⟨⟩⟩ <;> exact .connect rfl rfl
    | _ => cases h
  | returned => cases h

theorem pingMonitor_locking {k : Nat} {pc : PingPC} {r : Client × PingPC}
    (h : s.pingMonitor k pc choice = some r) :
    Effect s (.pingMonitor k pc) r.1 (.pingMonitor k r.2) := by
  cases pc with
  | test | processing | shutdown =>
    cases choice <;> cases h
    split <;> exact .stay rfl rfl rfl (nomatch ·) rfl
  | lock | lockAgain =>
    cases choice with
    | next =>
      obtain rfl := lock_eq h
      exact .acquire h rfl rfl (nomatch ·) rfl
    | _ => cases h
  | retest =>
    cases choice <;> cases h
    split
    · exact .stay rfl rfl rfl (nomatch ·) rfl
    · next hsome =>
      refine .stay rfl rfl rfl (fun _ => .inr ⟨rfl, ?_⟩) rfl
      rw [isSome_iff_ne_none]
      exact fun hnone => hsome (isNone_iff_eq_none.mpr hnone)
  | write =>
    rcases deref_eq h with ⟨-, rfl⟩ | ⟨j, -, hwrite⟩
    · exact .stay rfl rfl rfl .inl rfl
    · obtain ⟨sent, rfl⟩ := write_eq hwrite
      exact .stay rfl rfl rfl (nomatch ·) rfl
  | unlock =>
    cases choice <;> cases h
    split <;> exact .release rfl rfl (nomatch ·) rfl
  | testAgain =>
    cases choice <;> cases h
    split
    · next hsome => exact .stay rfl rfl rfl (fun _ => .inr ⟨rfl, hsome⟩) rfl
    · exact .stay rfl rfl rfl (nomatch ·) rfl
  | closeConn =>
    cases choice with
    | next =>
      rcases deref_eq h with ⟨-, rfl⟩ | ⟨j, -, hclose⟩
      · exact .stay rfl rfl rfl .inl rfl
      · cases hclose
        exact .stay rfl rfl rfl (nomatch ·) rfl
    | _ => cases h
  | unlockAgain =>
    cases choice <;> cases h
    exact .release rfl rfl (nomatch ·) rfl
  | wait =>
    cases choice with
    | tick =>
      cases h
      exact .stay rfl rfl rfl (nomatch ·) rfl
    | next =>
      obtain ⟨-, h⟩ := ite_none_right_eq_some.mp h
      cases h
      exact .stay rfl rfl rfl (nomatch ·) rfl
    | _ => cases h
  | returned => cases h

theorem readPump_locking {k : Nat} {pc : PumpPC} {r : Client × PumpPC}
    (h : s.readPump k pc choice = some r) :
    Effect s (.readPump k pc) r.1 (.readPump k r.2) := by
  cases pc with
  | select | test | shutdown | retest =>
    cases choice <;> cases h
    split <;> exact .pump rfl rfl rfl
  | blocked | handler => cases choice <;> cases h <;> exact .pump rfl rfl rfl
  | read | closeConn | closeAgain =>
    cases choice with
    | next => rcases deref_eq h with ⟨-, rfl⟩ | ⟨j, -, ⟨⟩⟩ <;> exact .pump rfl rfl rfl
    | _ => cases h
  | received handled =>
    cases choice with
    | next =>
      rcases deref_eq h with ⟨-, rfl⟩ | ⟨j, -, hhandle⟩
      · exact .pump rfl rfl rfl
      · split at hhandle <;> cases hhandle <;> exact .pump rfl rfl rfl
    | _ => cases h
  | signal | restart =>
    cases choice with
    | next =>
      simp only [readPump] at h
      split at h <;> cases h <;> exact .pump rfl rfl rfl
    | _ => cases h
  | lock =>
    cases choice with
    | next =>
      obtain rfl := lock_eq h
      exact .acquire h rfl rfl (nomatch ·) rfl
    | _ => cases h
  | clear =>
    -- The only place that takes the connection away.
    cases choice <;> cases h
    exact ⟨fun _ => rfl, (nomatch ·), (nomatch ·), rfl⟩
  | unlock =>
    cases choice <;> cases h
    exact .release rfl rfl (nomatch ·) rfl
  | returned => cases h

theorem close_locking {pc : ClosePC} {r : Client × ClosePC} (h : s.close pc choice = some r) :
    Effect s (.close pc) r.1 (.close r.2) := by
  unfold close at h
  split at h
  · -- `select`
    cases h
    split <;> exact .stay rfl rfl rfl (nomatch ·) rfl
  · -- `closeDone`
    split at h <;> cases h <;> exact .stay rfl rfl rfl (nomatch ·) rfl
  · -- `test`
    cases h
    split
    · next hsome => exact .stay rfl rfl rfl (fun _ => .inr ⟨rfl, hsome⟩) rfl
    · exact .stay rfl rfl rfl (nomatch ·) rfl
  · -- `lock`
    obtain rfl := lock_eq h
    exact .acquire h rfl rfl (fun _ => .inl rfl) rfl
  · -- `write`
    rcases deref_eq h with ⟨-, rfl⟩ | ⟨j, -, hwrite⟩
    · exact .stay rfl rfl rfl .inl rfl
    · obtain ⟨sent, rfl⟩ := write_eq hwrite
      exact .stay rfl rfl rfl (fun _ => .inl rfl) rfl
  · -- `unlock`
    cases h
    exact .release rfl rfl (fun _ => .inl rfl) rfl
  · -- `closeConn`
    rcases deref_eq h with ⟨-, rfl⟩ | ⟨j, -, hclose⟩
    · exact .stay rfl rfl rfl .inl rfl
    · cases hclose
      exact .stay rfl rfl rfl (nomatch ·) rfl
  · cases h

theorem sendMessage_locking {pc : SendPC} {r : Client × SendPC}
    (h : s.sendMessage pc choice = some r) :
    Effect s (.sendMessage pc) r.1 (.sendMessage r.2) := by
  unfold sendMessage at h
  split at h
  · -- `test`
    cases h
    split
    · exact .stay rfl rfl rfl (nomatch ·) rfl
    · next hsome =>
      refine .stay rfl rfl rfl (fun _ => .inr ⟨rfl, ?_⟩) rfl
      rw [isSome_iff_ne_none]
      exact fun hnone => hsome (isNone_iff_eq_none.mpr hnone)
  · -- `lock`
    obtain rfl := lock_eq h
    exact .acquire h rfl rfl (fun _ => .inl rfl) rfl
  · -- `write`
    rcases deref_eq h with ⟨-, rfl⟩ | ⟨j, -, hwrite⟩
    · exact .stay rfl rfl rfl .inl rfl
    · obtain ⟨sent, rfl⟩ := write_eq hwrite
      exact .stay rfl rfl rfl (nomatch ·) rfl
  · -- `unlock`
    cases h
    exact .release rfl rfl (nomatch ·) rfl
  · cases h

theorem move_locking (h : s.move choice g = some (s', g')) : Effect s g s' g' := by
  rcases moved h with hr | hr | hr | hr | hr
  · exact connectWithRetry_locking hr
  · exact pingMonitor_locking hr
  · exact readPump_locking hr
  · exact close_locking hr
  · exact sendMessage_locking hr

/-! ## Runs -/

/-- A goroutine that is started does not hold the lock. -/
theorem countP_holdsLock_of_move (h : s.move choice g = some (s', g')) :
    s'.goroutines.countP holdsLock = s.goroutines.countP holdsLock := by
  rcases goroutines_of_move h with hsame | ⟨x, hx, hnew⟩
  · rw [hsame]
  · rw [hnew, countP_append, countP_singleton, (started_holdsLock hx).1]
    rfl

theorem Exclusive.held (h : s.Exclusive) (hg : g ∈ s.goroutines) (hholds : g.holdsLock = true) :
    s.writeMux = true := by
  have hpos : 0 < s.goroutines.countP holdsLock :=
    countP_pos_iff.mpr ⟨g, hg, hholds⟩
  cases hmux : s.writeMux with
  | true => rfl
  | false =>
    rw [h, hmux] at hpos
    exact absurd hpos (Nat.lt_irrefl 0)

theorem Exclusive.step {e : Event} (h : s.Exclusive) (hstep : s.step e = some t) :
    t.Exclusive := by
  rcases step_cases hstep with ⟨g, hg, rfl⟩ | ⟨i, choice, g, s', g', -, hi, hmove, rfl⟩
  · have hfree : g.holdsLock = false := by rcases hg with ⟨-, rfl⟩ | ⟨-, rfl⟩ <;> rfl
    unfold Exclusive at h ⊢
    rw [countP_append, countP_singleton, hfree]
    exact h
  · have hlock := (move_locking hmove).lock (h.held (mem_of_getElem? hi))
    have hi' : s'.goroutines[i]? = some g := getElem?_move_of_some hmove hi
    have hcount := Tasks.countP_set_add (b := g') holdsLock hi'
    have hbefore : s.goroutines.countP holdsLock = s.writeMux.toNat := h
    rw [countP_holdsLock_of_move hmove, hbefore] at hcount
    show (s'.goroutines.set i g').countP holdsLock = s'.writeMux.toNat
    omega

/-- The goroutines of a kind stay safe, if those that do not hold the lock while they rely
on the field are not there when it is cleared. -/
theorem Guarded.step {kind : Goroutine → Bool} {e : Event} (h : s.Guarded kind)
    (hexclusive : s.Exclusive) (hstep : s.step e = some t)
    (hkind : ∀ {s' g g' choice}, s.move choice g = some (s', g') → kind g' = kind g)
    (hclear : s.ClearsUnwatched e ∨
      ∀ g, kind g = true → g.relies = true → g.holdsLock = true) : t.Guarded kind := by
  rcases step_cases hstep with ⟨g, hg, rfl⟩ | ⟨i, choice, g, s', g', rfl, hi, hmove, rfl⟩
  · intro x hx hk hrelies
    rcases mem_append.mp hx with hx | hx
    · exact h x hx hk hrelies
    · rw [mem_singleton.mp hx] at hrelies
      rcases hg with ⟨-, rfl⟩ | ⟨-, rfl⟩ <;> cases hrelies
  · have heffect := move_locking hmove
    have hgmem := mem_of_getElem? hi
    -- The others, as long as the field is not cleared before them.
    have hothers : ∀ x ∈ s.goroutines, kind x = true → x.relies = true →
        s'.conn.isSome = true := by
      intro x hx hk hrelies
      cases hat : g.atClear with
      | false => exact heffect.conn hat (h x hx hk hrelies)
      | true =>
        have hx' : x.holdsLock = true := by
          rcases hclear with hclear | hkind
          · refine hclear ?_ x hx hrelies
            rw [hi]
            exact hat
          · exact hkind x hk hrelies
        obtain ⟨hg, hgrelies⟩ := atClear_holdsLock hat
        have hone : s.goroutines.countP holdsLock ≤ 1 := by
          rw [hexclusive]
          exact s.writeMux.toNat_le
        rw [Tasks.eq_of_countP_le_one hone hx hgmem hx' hg, hgrelies] at hrelies
        cases hrelies
    intro x hx hk hrelies
    rcases mem_of_move hmove hx with rfl | hx | hx
    · rcases heffect.relies hrelies with hg | ⟨hat, hsome⟩
      · exact hothers g hgmem ((hkind hmove).symm.trans hk) hg
      · exact heffect.conn hat hsome
    · exact hothers x hx hk hrelies
    · rw [(started_holdsLock hx).2] at hrelies
      cases hrelies

/-- The lock and the goroutines of a kind. -/
structure Watched (kind : Goroutine → Bool) (s : Client) : Prop where
  exclusive : s.Exclusive
  guarded : s.Guarded kind

theorem Watched.init (kind : Goroutine → Bool) : init.Watched kind := by
  refine ⟨rfl, ?_⟩
  intro g hg _ hrelies
  rw [mem_singleton.mp hg] at hrelies
  cases hrelies

theorem Watched.step_all {e : Event} (h : s.Watched (fun _ => true)) (he : s.ClearsUnwatched e)
    (hstep : s.step e = some t) : t.Watched (fun _ => true) :=
  ⟨h.exclusive.step hstep, h.guarded.step h.exclusive hstep (fun _ => rfl) (.inl he)⟩

theorem Watched.step_ping {e : Event} (h : s.Watched isPing)
    (hstep : s.step e = some t) : t.Watched isPing :=
  ⟨h.exclusive.step hstep, h.guarded.step h.exclusive hstep
    (fun hmove => (move_locking hmove).isPing) (.inr fun _ => holdsLock_of_isPing)⟩

/-- A ping tests the field under the lock, so it never uses a nil connection, whatever
the others do. -/
theorem conn_not_nil_in_ping (events : List Event)
    (hrun : run step init events = some s) (hg : g ∈ s.goroutines)
    (hping : g.isPing = true) (huses : g.uses = true) : s.conn.isSome = true := by
  have hwatched : s.Watched isPing :=
    run_always (fun h hstep => Watched.step_ping h hstep) (Watched.init _) hrun
  exact hwatched.guarded g hg hping (relies_of_uses huses)

/-- A ping monitor is about to take the lock when its connection fails, is cleared and is
replaced. -/
def pingAcrossReconnect : List Event :=
  steps 0 6 ++ steps 1 2 ++ steps 2 2 ++ [.go 2 .fail] ++ steps 2 10 ++ steps 3 6 ++ steps 1 2

/-- It writes on the new connection. -/
theorem ping_writes_on_conn : ∃ s, run step init pingAcrossReconnect = some s ∧
    .pingMonitor 0 .write ∈ s.goroutines ∧ s.conn = some 1 ∧ s.conn.isSome = true := by
  simp only [← and_assoc]
  refine Exists.imp (fun s h => ⟨h, conn_not_nil_in_ping _ h.1.1 h.1.2 rfl rfl⟩) ?_
  simp only [and_assoc]
  decide +kernel

theorem Watched.usesGuarded (h : s.Watched (fun _ => true)) : s.UsesGuarded := by
  refine ⟨fun g hg huses => h.guarded g hg rfl (relies_of_uses huses), ?_⟩
  intro g hg hwrites
  have hholds := holdsLock_of_writes hwrites
  have hmux := h.exclusive.held hg hholds
  have hcount : s.goroutines.countP holdsLock = s.writeMux.toNat := h.exclusive
  rw [hmux] at hcount
  exact ⟨hmux, hholds, hcount⟩

/-- **Uses of the connection**: in every interleaving of the goroutines of a client in
which the read pump clears the field only when no call of `SendMessage` or `Close` is
between its test of the field and the lock, or in `Close` between the lock and
`c.conn.Close()`, no sender and no closer uses a nil connection, and each writes while it
is the only goroutine that holds the lock. -/
theorem conn_not_nil_in_use (events : List Event) (s : Client)
    (hmeets : Runs.Meets step ClearsUnwatched init events)
    (hrun : run step init events = some s) : s.UsesGuarded := by
  have hwatched : s.Watched (fun _ => true) := run_invariant
    (fun h he hstep => Watched.step_all h he hstep) (Watched.init _) hmeets hrun
  exact hwatched.usesGuarded

/-- A message is sent, the connection fails and is replaced, and the next message is about
to be written on the new one. -/
def sentAcrossReconnect : List Event :=
  steps 0 6 ++ [.callSendMessage] ++ steps 3 4 ++ steps 2 2 ++ [.go 2 .fail] ++ steps 2 10 ++
    steps 4 6 ++ [.callSendMessage] ++ steps 7 2

def sendingClient : Client where
  conn := some 1
  writeMux := true
  conns := [⟨true, true, 1⟩, {}]
  goroutines := [.connectWithRetry .returned, .pingMonitor 0 .test, .readPump 0 .returned,
    .sendMessage (.returned true), .connectWithRetry .returned, .pingMonitor 1 .test,
    .readPump 1 .select, .sendMessage .write]

/-- The second message is written on the second connection. -/
theorem conn_not_nil_in_use_sentAcrossReconnect :
    Runs.Meets step ClearsUnwatched init sentAcrossReconnect ∧
      run step init sentAcrossReconnect = some sendingClient ∧
      sendingClient.UsesGuarded := by
  have hmeets : Runs.Meets step ClearsUnwatched init sentAcrossReconnect := by decide +kernel
  have hrun : run step init sentAcrossReconnect = some sendingClient := by decide +kernel
  exact ⟨hmeets, hrun, conn_not_nil_in_use sentAcrossReconnect sendingClient hmeets hrun⟩

/-- `SendMessage` finds a connection and then waits for the lock.  The read of the
connection fails, and the read pump clears the field before `SendMessage` has the lock. -/
def clearedBeforeSend : List Event :=
  steps 0 6 ++ [.callSendMessage] ++ steps 3 1 ++ steps 2 2 ++ [.go 2 .fail] ++ steps 2 9 ++
    steps 3 2

/-- The read pump is past its test of `done` when `Close` is called.  `Close` finds a
connection, and the read pump clears the field before `Close` has the lock. -/
def clearedBeforeClose : List Event :=
  steps 0 6 ++ steps 2 2 ++ [.go 2 .fail] ++ steps 2 4 ++ [.callClose] ++ steps 3 3 ++
    steps 2 5 ++ steps 3 2

/-- `SendMessage` and `Close` test the field before they have the lock and do not test it
again, so the program can end in a use of a nil connection in both. -/
theorem conn_nil_in_use :
    (∃ s, run step init clearedBeforeSend = some s ∧ s.panicked = true ∧
      s.goroutines[3]? = some (.sendMessage .write) ∧ s.conn = none ∧ ¬ s.UsesGuarded) ∧
    ∃ s, run step init clearedBeforeClose = some s ∧ s.panicked = true ∧
      s.goroutines[3]? = some (.close .write) ∧ s.conn = none ∧ ¬ s.UsesGuarded := by
  have hnil : ∀ s : Client, ∀ g, s.goroutines[3]? = some g → g.uses = true →
      s.conn = none → ¬ s.UsesGuarded := by
    intro s g hg huses hnone hguarded
    have hsome := hguarded.notNil g (mem_of_getElem? hg) huses
    rw [hnone] at hsome
    cases hsome
  simp only [← and_assoc]
  constructor
  · refine Exists.imp (fun s h => ⟨h, hnil s _ h.1.2 rfl h.2⟩) ?_
    simp only [and_assoc]
    decide +kernel
  · refine Exists.imp (fun s h => ⟨h, hnil s _ h.1.2 rfl h.2⟩) ?_
    simp only [and_assoc]
    decide +kernel

end Client

end Newt.Websocket
