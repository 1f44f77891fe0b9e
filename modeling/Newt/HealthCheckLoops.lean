import Newt.HealthCheck

/-!
# One loop for each health check target

A monitoring period ends when its target is replaced, removed or disabled, and a new one
begins when the target is enabled again.  `one_loop_per_target` says that a check is begun
by the loop of the present period only, and that an enabled target has exactly one.

That takes a condition, `Orderly`.  The context of a period is cancelled only when its loop
has begun its first check: the first check is made without a look at the context.  A target
is enabled again only when its former loops are in their select: a loop that is not goes on
with the new context.  And a select whose context is done does not take the timer: it may,
if both are ready.
-/

namespace Newt.HealthCheck

open List Runs

open Connect (Config)

/-- In the select, or returned. -/
def Place.settled : Place → Bool
  | .waiting _ | .returned => true
  | _ => false

namespace Monitor

section Condition

variable (s : Monitor)

/-- No loop of the target is still before its first check. -/
def NoneStarting (ref : Nat) : Prop :=
  ∀ l ∈ s.loops, l.target = ref → l.place ≠ .starting
  deriving Decidable

/-- Every loop of the target is in its select or has returned. -/
def AllSettled (ref : Nat) : Prop :=
  ∀ l ∈ s.loops, l.target = ref → l.place.settled = true
  deriving Decidable

/-- The operation comes at a good moment. -/
def OpOrderly : Op → Prop
  | .add config => ∀ ref ∈ s.targets.lookup (config .id), s.NoneStarting ref
  | .remove id => ∀ ref ∈ s.targets.lookup id, s.NoneStarting ref
  | .enable id => ∀ ref ∈ s.targets.lookup id,
      (s.heap ref).config .enabled = false → s.AllSettled ref
  | .disable id => ∀ ref ∈ s.targets.lookup id, s.NoneStarting ref

instance (op : Op) : Decidable (s.OpOrderly op) := by
  unfold OpOrderly
  split <;> infer_instance

/-- The loop is in its select and the context it waits for is done. -/
def toldToStop (l : Loop) : Bool :=
  match l.place with
  | .waiting ctx => s.cancelled ctx
  | _ => false

/-- The event comes at a good moment. -/
def Orderly : Event → Prop
  | .call c => Runs.Meets applyStep OpOrderly s (c.ops s)
  | .loop k .tick => ∀ l ∈ s.loops[k]?, s.toldToStop l = false
  | .loop _ _ => True

instance (e : Event) : Decidable (s.Orderly e) := by
  unfold Orderly
  split <;> infer_instance

end Condition

/-! ## Where the loops are -/

/-- A loop waits for the context of its period, and reads no other from its target. -/
def Placed (s : Monitor) (l : Loop) : Prop :=
  match l.place with
  | .starting => s.cancelled l.ctx = false
  | .checking ctx => ctx = l.ctx ∧ (s.heap l.target).ctx = l.ctx
  | .looping => (s.heap l.target).ctx = l.ctx
  | .waiting ctx => ctx = l.ctx
  | .returned => s.cancelled l.ctx = true

structure Sound (s : Monitor) : Prop extends WellFormed s where
  placed : ∀ l ∈ s.loops, s.Placed l

variable {s s' : Monitor} {l : Loop} {ref k : Nat}

theorem Placed.not_cancelled (h : s.Placed l) (hp : l.place = .starting) :
    s.cancelled l.ctx = false := by simpa only [Placed, hp] using h

theorem Placed.cancelled (h : s.Placed l) (hp : l.place = .returned) :
    s.cancelled l.ctx = true := by simpa only [Placed, hp] using h

/-- What a loop depends on: its context while it starts, and the target until it has settled. -/
theorem Placed.of_kept (h : s.Placed l)
    (hstart : l.place = .starting → s'.cancelled l.ctx = false)
    (hctx : l.place.settled = false → (s'.heap l.target).ctx = (s.heap l.target).ctx)
    (hdone : s.cancelled l.ctx = true → s'.cancelled l.ctx = true) : s'.Placed l := by
  obtain ⟨period, place⟩ := l
  cases place with
  | starting => exact hstart rfl
  | checking ctx => exact ⟨h.1, (hctx rfl).trans h.2⟩
  | looping => exact (hctx rfl).trans h
  | waiting ctx => exact h
  | returned => exact hdone h

theorem cancel_cancelled_of_true {ctx : Nat} (h : s.cancelled ctx = true) :
    (s.cancel ref).cancelled ctx = true := by
  by_contra hnot
  have hfalse := cancel_cancelled_eq_false_iff.mp (Bool.eq_false_iff.mpr hnot)
  rw [h] at hfalse
  cases hfalse.2

theorem mem_periods (hl : l ∈ s.loops) : l.toPeriod ∈ s.periods :=
  mem_map_of_mem hl

/-- A loop that starts is not touched when the context of another target is cancelled. -/
theorem Sound.starting_cancel (h : s.Sound) (href : ref < s.nextRef) (hnone : s.NoneStarting ref)
    (hl : l ∈ s.loops) (hp : l.place = .starting) : (s.cancel ref).cancelled l.ctx = false := by
  have hnot := (h.placed l hl).not_cancelled hp
  obtain ⟨-, hctx⟩ := h.current l.toPeriod (mem_periods hl) hnot
  refine cancel_cancelled_eq_false_iff.mpr ⟨fun heq => ?_, hnot⟩
  have htarget : l.target = ref :=
    h.own l.target ref (h.allocated l.toPeriod (mem_periods hl)).1 href (hctx.trans heq)
  exact hnone l hl htarget hp

theorem Sound.drop {id : Int} (h : s.Sound) (hid : s.targets.lookup id = some ref)
    (hnone : s.NoneStarting ref) : (s.drop id ref).Sound where
  toWellFormed := h.toWellFormed.drop hid
  placed := by
    intro l hl
    exact (h.placed l hl).of_kept (h.starting_cancel (h.ids id ref hid).1 hnone hl) (fun _ => rfl)
      cancel_cancelled_of_true

theorem Sound.halt (h : s.Sound) (hm : s.Mapped ref) (hnone : s.NoneStarting ref) :
    (s.halt ref).Sound where
  toWellFormed := h.toWellFormed.halt hm
  placed := by
    intro l hl
    exact (h.placed l hl).of_kept (h.starting_cancel (h.lt_of_mapped hm) hnone hl)
      (fun _ => halt_heap_ctx _) cancel_cancelled_of_true

theorem AllSettled.noneStarting (h : s.AllSettled ref) : s.NoneStarting ref := by
  intro l hl htarget hp
  have hsettled := h l hl htarget
  rw [hp] at hsettled
  cases hsettled

theorem Sound.renew (h : s.Sound) (hm : s.Mapped ref)
    (hoff : (s.heap ref).config .enabled = false) (hsettled : s.AllSettled ref) :
    (s.renew ref).Sound where
  toWellFormed := h.toWellFormed.renew hm hoff
  placed := by
    intro l hl
    have hlt := h.lt_of_mapped hm
    rw [renew_loops, mem_append] at hl
    rcases hl with hl | hl
    · refine (h.placed l hl).of_kept (h.starting_cancel hlt hsettled.noneStarting hl) (fun hp => ?_)
        cancel_cancelled_of_true
      -- a loop that has not settled is of another target
      have hne : l.target ≠ ref := by
        intro heq
        rw [hsettled l hl heq] at hp
        cases hp
      rw [renew_heap, if_neg hne]
    · obtain rfl := mem_singleton.mp hl
      exact cancel_cancelled_eq_false_iff.mpr
        ⟨Nat.ne_of_gt (h.contexts ref hlt), h.fresh _ (Nat.le_refl _)⟩

theorem Sound.create {config : Config} (h : s.Sound)
    (hnone : s.targets.lookup (config .id) = none) : (s.create config).Sound where
  toWellFormed := h.toWellFormed.create hnone
  placed := by
    intro l hl
    obtain ⟨-, -, hcancelled⟩ := create_rest (s := s) config
    rw [create_loops, mem_append] at hl
    rcases hl with hl | hl
    · have hlt := (h.allocated l.toPeriod (mem_periods hl)).1
      refine (h.placed l hl).of_kept (fun hp => ?_) (fun _ => ?_) (fun hc => ?_)
      · rw [hcancelled]
        exact (h.placed l hl).not_cancelled hp
      · rw [create_heap, if_neg (Nat.ne_of_lt hlt)]
      · rw [hcancelled]
        exact hc
    · split at hl
      · obtain rfl := mem_singleton.mp hl
        show (s.create config).cancelled s.nextCtx = false
        rw [hcancelled]
        exact h.fresh _ (Nat.le_refl _)
      · exact absurd hl not_mem_nil

theorem Sound.apply {op : Op} (h : s.Sound) (horderly : s.OpOrderly op) : (s.apply op).Sound := by
  refine apply_invariant h ?_ (fun _ _ ht => ht.create) ?_ ?_
  · rintro id ref hid (rfl | ⟨config, rfl, rfl⟩)
    · exact h.drop hid (horderly ref hid)
    · exact h.drop hid (horderly ref hid)
  · rintro id ref rfl hid hoff
    exact h.renew (h.mapped_of_lookup hid) hoff (horderly ref hid hoff)
  · rintro id ref rfl hid -
    exact h.halt (h.mapped_of_lookup hid) (horderly ref hid)

/-- A check is begun in the present period. -/
theorem Sound.current_of_starts {move : Move} {s₁ : Monitor} {place : Place} (h : s.Sound)
    (hl : s.loops[k]? = some l) (horderly : s.Orderly (.loop k move))
    (hstarts : move.startsCheck = true) (hadv : Advances s l move s₁ place) :
    s.Monitored l.target ∧ (s.heap l.target).ctx = l.ctx := by
  have hmem := mem_of_getElem? hl
  have hplaced := h.placed l hmem
  refine h.current l.toPeriod (mem_periods hmem) ?_
  cases hadv with
  | first hp => exact hplaced.not_cancelled hp
  | tick hp =>
    have htold := horderly l hl
    simp only [toldToStop, hp] at htold
    simp only [Placed, hp] at hplaced
    exact hplaced ▸ htold
  | finish hp answer | enter hp | done hp hc => cases hstarts

theorem Placed.of_sameShape (h : s.Placed l) (hshape : SameShape s s') : s'.Placed l := by
  refine h.of_kept (fun hp => ?_) (fun _ => hshape.ctx _) (fun hc => ?_)
  · rw [hshape.cancelled]
    exact h.not_cancelled hp
  · rw [hshape.cancelled]
    exact hc

theorem Sound.move {move : Move} {s₁ : Monitor} {place : Place} (h : s.Sound)
    (hl : s.loops[k]? = some l) (horderly : s.Orderly (.loop k move))
    (hadv : Advances s l move s₁ place) : (s₁.setPlace k l place).Sound where
  toWellFormed := h.toWellFormed.of_sameShape (SameShape.of_advances hl hadv)
  placed := by
    have hshape := SameShape.of_advances hl hadv
    have hloops : (s₁.setPlace k l place).loops = s.loops.set k { l with place := place } := by
      cases hadv <;> rfl
    have hplaced := h.placed l (mem_of_getElem? hl)
    intro l' hl'
    rw [hloops] at hl'
    rcases mem_or_eq_of_mem_set hl' with hl' | rfl
    · exact (h.placed l' hl').of_sameShape hshape
    · -- where the loop is now, by the step it made
      unfold Placed
      rw [hshape.ctx, hshape.cancelled]
      cases hadv with
      | first hp =>
        obtain ⟨-, hctx⟩ := h.current_of_starts hl horderly rfl (.first hp)
        exact ⟨hctx, hctx⟩
      | finish hp answer =>
        simp only [Placed, hp] at hplaced
        exact hplaced.2
      | enter hp =>
        simp only [Placed, hp] at hplaced
        exact hplaced
      | tick hp =>
        obtain ⟨-, hctx⟩ := h.current_of_starts hl horderly rfl (.tick hp)
        exact ⟨hctx, hctx⟩
      | done hp hc =>
        simp only [Placed, hp] at hplaced
        exact hplaced ▸ hc

theorem Sound.step {e : Event} (h : s.Sound) (horderly : s.Orderly e)
    (hs : s.step e = some s') : s'.Sound := by
  cases e with
  | call c =>
    simp only [Monitor.step] at hs
    split at hs <;> cases hs
    exact call_invariant (fun h ho => Sound.apply h ho) h horderly
  | loop k move =>
    obtain ⟨l, s₁, place, hl, hadv, rfl⟩ := moveLoop_cases hs
    exact h.move hl horderly hadv

theorem Sound.init : Sound init where
  toWellFormed := WellFormed.init
  placed := fun _ h => absurd h not_mem_nil

/-! ## What stays of a period -/

/-- Contexts stay cancelled and loops keep their periods. -/
structure Extends (s s' : Monitor) : Prop where
  cancelled : ∀ ctx, s.cancelled ctx = true → s'.cancelled ctx = true
  periods : s.periods <+: s'.periods

theorem Extends.refl (s : Monitor) : s.Extends s :=
  ⟨fun _ h => h, prefix_refl _⟩

theorem Extends.trans {s'' : Monitor} (h : s.Extends s') (h' : s'.Extends s'') : s.Extends s'' :=
  ⟨fun ctx hc => h'.cancelled ctx (h.cancelled ctx hc), h.periods.trans h'.periods⟩

theorem extends_create (s : Monitor) (config : Config) : s.Extends (s.create config) := by
  obtain ⟨-, -, hcancelled⟩ := create_rest (s := s) config
  refine ⟨fun ctx h => hcancelled ▸ h, ?_⟩
  rw [periods, periods, create_loops, map_append]
  exact prefix_append _ _

theorem extends_apply (s : Monitor) (op : Op) : s.Extends (s.apply op) := by
  have hcancel : ∀ ref ctx, s.cancelled ctx = true → (s.cancel ref).cancelled ctx = true :=
    fun _ _ hc => cancel_cancelled_of_true hc
  refine apply_invariant (Extends.refl s) ?_ (fun t config h _ => h.trans (extends_create t config))
    ?_ ?_
  · exact fun id ref _ _ => ⟨hcancel ref, prefix_refl _⟩
  · intro id ref _ _ _
    refine ⟨hcancel ref, ?_⟩
    rw [periods, periods, renew_loops, map_append]
    exact prefix_append _ _
  · exact fun id ref _ _ _ => ⟨hcancel ref, prefix_refl _⟩

theorem extends_step {e : Event} (hs : s.step e = some s') : s.Extends s' := by
  cases e with
  | call c =>
    simp only [step] at hs
    split at hs <;> cases hs
    exact call_invariant (C := fun _ _ => True) (I := s.Extends)
      (fun h _ => h.trans (extends_apply _ _)) (Extends.refl s)
      (meets_of_forall (fun _ _ _ => trivial) _)
  | loop k move =>
    obtain ⟨l, s₁, place, hl, hadv, rfl⟩ := moveLoop_cases hs
    have hshape := SameShape.of_advances hl hadv
    exact ⟨fun ctx h => hshape.cancelled ▸ h, hshape.periods ▸ prefix_refl _⟩

/-! ## One loop -/

/-- The loop is one of the target, has not been told to stop and has not returned. -/
def Lives (s : Monitor) (ref k : Nat) : Prop :=
  ∃ l, s.loops[k]? = some l ∧ l.target = ref ∧ s.cancelled l.ctx = false ∧ l.place ≠ .returned

/-- The loop is the one of the present period of an enabled target. -/
def Current (s : Monitor) (k : Nat) : Prop :=
  ∃ l, s.loops[k]? = some l ∧ s.Monitored l.target ∧ (s.heap l.target).ctx = l.ctx
  deriving Decidable

/-- The loop can begin a check now. -/
def StartsCheck (s : Monitor) (k : Nat) : Prop :=
  ∃ move s', move.startsCheck = true ∧ s.Orderly (.loop k move) ∧
    s.step (.loop k move) = some s'

/-- The loop can begin a check now or later. -/
def WillCheck (s : Monitor) (k : Nat) : Prop :=
  ∃ es s', Runs.Meets step Orderly s es ∧ run step s es = some s' ∧ s'.StartsCheck k

/-- The loops are of targets with the same ID. -/
def SameID (s : Monitor) (k k' : Nat) : Prop :=
  ∃ l l', s.loops[k]? = some l ∧ s.loops[k']? = some l' ∧
    (s.heap l.target).config .id = (s.heap l'.target).config .id

/-- Two loops with the same context are the same. -/
theorem WellFormed.index_inj {k' : Nat} {l' : Loop} (h : s.WellFormed)
    (hl : s.loops[k]? = some l) (hl' : s.loops[k']? = some l') (hctx : l.ctx = l'.ctx) :
    k = k' := by
  have hget : ∀ {i : Nat} {m : Loop}, s.loops[i]? = some m →
      (s.periods.map Period.ctx)[i]? = some m.ctx := by
    intro i m hm
    simp [periods, hm]
  have hlt : k < (s.periods.map Period.ctx).length :=
    (List.getElem?_eq_some_iff.mp (hget hl)).1
  exact (List.getElem?_inj hlt h.distinct).mp ((hget hl).trans (hctx ▸ (hget hl').symm))

theorem Sound.existsUnique_lives (h : s.Sound) (hm : s.Monitored ref) : ∃! k, s.Lives ref k := by
  obtain ⟨l, hl, hperiod⟩ := mem_map.mp (h.started ref hm)
  obtain ⟨htarget, hctx⟩ := Period.mk.inj hperiod
  obtain ⟨k, hk⟩ := mem_iff_getElem?.mp hl
  have hnot : s.cancelled l.ctx = false := hctx ▸ h.live ref hm
  refine ⟨k, ⟨l, hk, htarget, hnot, fun hp => ?_⟩, ?_⟩
  · have hc := (h.placed l hl).cancelled hp
    rw [hnot] at hc
    cases hc
  · rintro k' ⟨l', hk', htarget', hnot', -⟩
    obtain ⟨-, hctx'⟩ := h.current l'.toPeriod (mem_periods (mem_of_getElem? hk')) hnot'
    refine h.index_inj hk' hk (hctx'.symm.trans ?_)
    rw [show l'.toPeriod.target = ref from htarget']
    exact hctx.symm

theorem Sound.current_of_startsCheck (h : s.Sound) (hk : s.StartsCheck k) : s.Current k := by
  obtain ⟨move, s', hstarts, horderly, hs⟩ := hk
  obtain ⟨l, s₁, place, hl, hadv, -⟩ := moveLoop_cases hs
  exact ⟨l, hl, h.current_of_starts hl horderly hstarts hadv⟩

/-- A loop that begins a check at any later time is of the present period now. -/
theorem Sound.current_of_willCheck (h : s.Sound) (hl : s.loops[k]? = some l)
    (hk : s.WillCheck k) : s.Monitored l.target ∧ (s.heap l.target).ctx = l.ctx := by
  obtain ⟨es, s', hmeets, hrun, hstarts⟩ := hk
  have hs' : s'.Sound := run_invariant (fun h he hs => Sound.step h he hs) h hmeets hrun
  have hext : s.Extends s' :=
    run_always (fun hext hs => Extends.trans hext (extends_step hs)) (Extends.refl s) hrun
  obtain ⟨l', hl', hm, hctx⟩ := hs'.current_of_startsCheck hstarts
  -- it is the same loop, and its context is not cancelled
  have hperiod : l'.toPeriod = l.toPeriod := by
    have hget : s.periods[k]? = some l.toPeriod := by simp [periods, hl]
    have hget' : s'.periods[k]? = some l'.toPeriod := by simp [periods, hl']
    have hlt : k < s.periods.length := (List.getElem?_eq_some_iff.mp hget).1
    obtain ⟨rest, hrest⟩ := hext.periods
    rw [← hrest, List.getElem?_append_left hlt, hget] at hget'
    exact (Option.some.inj hget').symm
  refine h.current l.toPeriod (mem_periods (mem_of_getElem? hl)) ?_
  by_contra hnot
  have hc := hext.cancelled _ (Bool.not_eq_false _ ▸ hnot)
  rw [← hperiod, show l'.toPeriod.ctx = l'.ctx from rfl, ← hctx, hs'.live _ hm] at hc
  cases hc

theorem Sound.eq_of_willCheck {k' : Nat} (h : s.Sound) (hid : s.SameID k k')
    (hk : s.WillCheck k) (hk' : s.WillCheck k') : k = k' := by
  obtain ⟨l, l', hl, hl', hid⟩ := hid
  obtain ⟨hm, hctx⟩ := h.current_of_willCheck hl hk
  obtain ⟨hm', hctx'⟩ := h.current_of_willCheck hl' hk'
  have htarget := Mapped.eq_of_id hm.1 hm'.1 hid
  exact h.index_inj hl hl' (hctx.symm.trans (htarget ▸ hctx'))

/-- **One loop for each target.**  If every event comes at a good moment, then in every state
an enabled target has exactly one loop that has not been told to stop; a check is begun by
the loop of the present period only; and of the loops of one ID at most one begins a check
at any later time. -/
theorem one_loop_per_target (es : List Event) (s : Monitor)
    (hmeets : Runs.Meets step Orderly init es) (hrun : run step init es = some s) :
    (∀ id ref, s.targets.lookup id = some ref → (s.heap ref).config .enabled = true →
        ∃! k, s.Lives ref k) ∧
      (∀ k, s.StartsCheck k → s.Current k) ∧
      (∀ k k', s.SameID k k' → s.WillCheck k → s.WillCheck k' → k = k') := by
  have h : s.Sound := run_invariant (fun h he hs => Sound.step h he hs) Sound.init hmeets hrun
  refine ⟨fun id ref hid hon => ?_, fun k hk => h.current_of_startsCheck hk,
    fun k k' hid hk hk' => h.eq_of_willCheck hid hk hk'⟩
  exact h.existsUnique_lives ⟨h.mapped_of_lookup hid, hon⟩

/-! ## Runs -/

/-- An HTTP target. -/
def web : Config :=
  Function.update (Function.update (Function.update Connect.config.zero .id 7) .enabled true)
    .hostname "10.0.0.5"

/-- The loop makes a check and waits again. -/
def checks (k : Nat) (start : Move) (answer : Answer) : List Event :=
  [.loop k start, .loop k (.finish answer), .loop k .enter]

/-- A target is added, checked, disabled while its loop waits, and enabled again. -/
def pausedAtRest : List Event :=
  .call (.addTarget web) :: checks 0 .first (.answered 200) ++
    [.call (.disableTarget 7), .call (.enableTarget 7), .loop 0 .done]

theorem one_loop_per_target_pausedAtRest :
    Runs.Meets step Orderly init pausedAtRest ∧
      ∃ s, run step init pausedAtRest = some s ∧ s.targets.lookup 7 = some 0 ∧
        (s.heap 0).config .enabled = true ∧ ∃! k, s.Lives 0 k := by
  have hmeets : Runs.Meets step Orderly init pausedAtRest := by decide +kernel
  refine ⟨hmeets, ?_⟩
  simp only [← and_assoc]
  refine Exists.imp
    (fun s h => ⟨h, (one_loop_per_target _ s hmeets h.1.1).1 7 0 h.1.2 h.2⟩) ?_
  simp only [and_assoc]
  decide +kernel

/-- The target is disabled and enabled again while its first check runs. -/
def pausedInCheck : List Event :=
  [.call (.addTarget web), .loop 0 .first, .call (.disableTarget 7), .call (.enableTarget 7),
    .loop 0 (.finish (.failed "context canceled")), .loop 0 .enter] ++
    checks 1 .first (.answered 200)

/-- The loop of the first period goes on beside the one of the second.  And a loop that has
not begun its first check begins it after its target was removed. -/
theorem former_loop_goes_on :
    (∃ s, run step init pausedInCheck = some s ∧ ¬ s.Current 0 ∧
      (s.step (.loop 0 .tick)).isSome = true ∧ (s.step (.loop 1 .tick)).isSome = true) ∧
    ∃ s, run step init [.call (.addTarget web), .call (.removeTarget 7)] = some s ∧
      s.targets.lookup 7 = none ∧ (s.step (.loop 0 .first)).isSome = true := by
  decide +kernel

end Monitor

end Newt.HealthCheck
