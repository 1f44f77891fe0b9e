import Newt.HealthCheckLoops
import Newt.Lib.Streak

/-!
# The status of a health check target

The status of an enabled target should say what its checks came to since the monitoring was
last started, `verdict`, and that of a disabled target should be `unknown`.
`status_eq_verdict` says that it is so under a condition, `Calm`.

A target is disabled only while its loops wait: a check that runs then sets the status when
it ends, and a check that is cut short counts as a failure.  A target is enabled again only
if its counters do not matter: they are kept from the period before.  And a select whose
context is done does not take the timer.
-/

namespace Newt.HealthCheck

open List Function Runs

open Connect (Config)
open Streak

/-- The status after these outcomes, the last one first: which of the thresholds was reached
last. -/
def verdict (healthyThreshold unhealthyThreshold : Nat) : List Bool → Health
  | [] => .unknown
  | outcome :: before =>
    if Ends healthyThreshold true (outcome :: before) then .healthy
    else if Ends unhealthyThreshold false (outcome :: before) then .unhealthy
    else verdict healthyThreshold unhealthyThreshold before

/-! ## The counters -/

/-- A counter has the number of its last outcomes, as far as its threshold asks. -/
def Counts (threshold : Int) (b : Bool) (outcomes : List Bool) (counter : Nat) : Prop :=
  threshold = 1 ∨ counter = latest b outcomes

section Counts

variable {threshold : Int} {b x : Bool} {outcomes : List Bool} {counter : Nat}

theorem Counts.succ (h : Counts threshold b outcomes counter) :
    Counts threshold b (b :: outcomes) (counter + 1) := by
  unfold Counts
  rw [latest_cons_self]
  exact h.imp_right (congrArg (· + 1))

theorem Counts.zero (threshold : Int) (outcomes : List Bool) (h : x ≠ b) :
    Counts threshold b (x :: outcomes) 0 :=
  .inr (latest_cons_of_ne h).symm

theorem Counts.reached_iff (h : Counts threshold b outcomes counter) (hpos : 1 ≤ threshold) :
    threshold ≤ ((counter + 1 : Nat) : Int) ↔ Ends threshold.toNat b (b :: outcomes) := by
  rw [ends_iff, latest_cons_self]
  unfold Counts at h
  omega

theorem not_ends_of_ne (hpos : 1 ≤ threshold) (h : x ≠ b) :
    ¬ Ends threshold.toNat b (x :: outcomes) := by
  rw [ends_iff, latest_cons_of_ne h]
  omega

end Counts

namespace Target

/-- The counters are zero, or their thresholds reached at once. -/
def Neutral (t : Target) : Prop :=
  Counts (t.config .healthyThreshold) true [] t.consecutiveSuccesses ∧
    Counts (t.config .unhealthyThreshold) false [] t.consecutiveFailures

instance (t : Target) : Decidable t.Neutral :=
  inferInstanceAs (Decidable ((_ ∨ _) ∧ (_ ∨ _)))

/-- The counters and the status are those after these outcomes. -/
structure Agrees (t : Target) (outcomes : List Bool) : Prop where
  successes : Counts (t.config .healthyThreshold) true outcomes t.consecutiveSuccesses
  failures : Counts (t.config .unhealthyThreshold) false outcomes t.consecutiveFailures
  status : t.status = verdict (t.config .healthyThreshold).toNat
    (t.config .unhealthyThreshold).toNat outcomes

variable {t : Target} {outcomes : List Bool}

theorem Agrees.pass (h : t.Agrees outcomes) (hH : 1 ≤ t.config .healthyThreshold)
    (hU : 1 ≤ t.config .unhealthyThreshold) : t.pass.Agrees (true :: outcomes) := by
  have hreached := h.successes.reached_iff hH
  have hnot : ¬ Ends (t.config .unhealthyThreshold).toNat false (true :: outcomes) :=
    not_ends_of_ne hU (by decide)
  unfold Target.pass
  by_cases hend : Ends (t.config .healthyThreshold).toNat true (true :: outcomes)
  · rw [if_pos (hreached.mpr hend)]
    exact ⟨h.successes.succ, Counts.zero _ _ (by decide), by simp only [verdict, if_pos hend]⟩
  · rw [if_neg (fun hle => hend (hreached.mp hle))]
    refine ⟨h.successes.succ, Counts.zero _ _ (by decide), ?_⟩
    simp only [verdict, if_neg hend, if_neg hnot]
    exact h.status

theorem Agrees.fail (h : t.Agrees outcomes) (hH : 1 ≤ t.config .healthyThreshold)
    (hU : 1 ≤ t.config .unhealthyThreshold) (err : String) :
    (t.fail err).Agrees (false :: outcomes) := by
  have hreached := h.failures.reached_iff hU
  have hnot : ¬ Ends (t.config .healthyThreshold).toNat true (false :: outcomes) :=
    not_ends_of_ne hH (by decide)
  unfold Target.fail
  by_cases hend : Ends (t.config .unhealthyThreshold).toNat false (false :: outcomes)
  · rw [if_pos (hreached.mpr hend)]
    exact ⟨Counts.zero _ _ (by decide), h.failures.succ,
      by simp only [verdict, if_neg hnot, if_pos hend]⟩
  · rw [if_neg (fun hle => hend (hreached.mp hle))]
    refine ⟨Counts.zero _ _ (by decide), h.failures.succ, ?_⟩
    simp only [verdict, if_neg hnot, if_neg hend]
    exact h.status

theorem Agrees.record (h : t.Agrees outcomes) (hH : 1 ≤ t.config .healthyThreshold)
    (hU : 1 ≤ t.config .unhealthyThreshold) (answer : Answer) :
    (t.record answer).Agrees ((checkErr t.config answer).isNone :: outcomes) := by
  unfold Target.record
  cases checkErr t.config answer with
  | none => exact h.pass hH hU
  | some err => exact h.fail hH hU err

/-- The status is what it should be. -/
def Judged (t : Target) (outcomes : List Bool) : Prop :=
  if t.config .enabled then
    1 ≤ t.config .healthyThreshold → 1 ≤ t.config .unhealthyThreshold → t.Agrees outcomes
  else t.status = .unknown

theorem judged_disable (t : Target) (outcomes : List Bool) : t.disable.Judged outcomes := by
  rw [Judged, show t.disable.config .enabled = false from rfl, if_neg Bool.false_ne_true]
  rfl

theorem status_of_judged (h : t.Judged outcomes) (hoff : t.config .enabled = false) :
    t.status = .unknown := by rwa [Judged, hoff, if_neg Bool.false_ne_true] at h

theorem judged_enable (hneutral : t.Neutral) (hstatus : t.status = .unknown) (ctx : Nat) :
    (t.enable ctx).Judged [] := by
  rw [Judged, show (t.enable ctx).config .enabled = true from rfl, if_pos rfl]
  exact fun _ _ => ⟨hneutral.1, hneutral.2, hstatus⟩

theorem judged_new (config : Config) (ctx : Nat) : (new config ctx).Judged [] := by
  unfold Judged
  split
  · exact fun _ _ => ⟨.inr rfl, .inr rfl, rfl⟩
  · rfl

theorem Judged.countCheck (h : t.Judged outcomes) : t.countCheck.Judged outcomes := by
  unfold Judged at h ⊢
  by_cases hon : t.config .enabled = true
  · rw [if_pos hon] at h
    rw [if_pos (show t.countCheck.config .enabled = true from hon)]
    exact fun hH hU => ⟨(h hH hU).successes, (h hH hU).failures, (h hH hU).status⟩
  · rw [if_neg hon] at h
    rw [if_neg (show ¬ t.countCheck.config .enabled = true from hon)]
    exact h

end Target

namespace Monitor

section Condition

variable (s : Monitor)

/-- The operation comes at a good moment. -/
def OpCalm : Op → Prop
  | .disable id => ∀ ref ∈ s.targets.lookup id,
      (s.heap ref).config .enabled = true → s.AllSettled ref
  | .enable id => ∀ ref ∈ s.targets.lookup id,
      (s.heap ref).config .enabled = false → (s.heap ref).Neutral
  | _ => True

instance : ∀ op, Decidable (s.OpCalm op)
  | .disable _ | .enable _ => inferInstanceAs (Decidable (∀ ref ∈ s.targets.lookup _, _))
  | .add _ | .remove _ => isTrue trivial

/-- The event comes at a good moment. -/
def Calm : Event → Prop
  | .call c => Runs.Meets applyStep OpCalm s (c.ops s)
  | .loop k .tick => ∀ l ∈ s.loops[k]?, s.toldToStop l = false
  | .loop _ _ => True

instance : ∀ e, Decidable (s.Calm e)
  | .call c => inferInstanceAs (Decidable (Runs.Meets applyStep OpCalm s (c.ops s)))
  | .loop k .tick => inferInstanceAs (Decidable (∀ l ∈ s.loops[k]?, s.toldToStop l = false))
  | .loop _ .first | .loop _ (.finish _) | .loop _ .enter | .loop _ .done => isTrue trivial

end Condition

/-- A check runs under the context of its target, and a select that waits for an older one is
done. -/
def Aligned (s : Monitor) (l : Loop) : Prop :=
  match l.place with
  | .checking ctx => ctx = (s.heap l.target).ctx
  | .waiting ctx => s.cancelled ctx = false → ctx = (s.heap l.target).ctx
  | _ => True

/-- The loop does not only return. -/
def busy (s : Monitor) (l : Loop) : Bool :=
  match l.place with
  | .waiting ctx => !s.cancelled ctx
  | .returned => false
  | _ => true

structure Faithful (s : Monitor) : Prop extends WellFormed s where
  aligned : ∀ l ∈ s.loops, s.Aligned l
  quiet : ∀ l ∈ s.loops, s.Mapped l.target → s.busy l = true →
    (s.heap l.target).config .enabled = true
  unused : ∀ ctx, s.nextCtx ≤ ctx → s.outcomes ctx = []
  judged : ∀ ref, s.Mapped ref → (s.heap ref).Judged (s.outcomes (s.heap ref).ctx)

variable {s s' : Monitor} {l : Loop} {ref k : Nat}

/-! ### The operations -/

theorem not_cancelled_of_cancel {ctx : Nat} (h : (s.cancel ref).cancelled ctx = false) :
    s.cancelled ctx = false :=
  (cancel_cancelled_eq_false_iff.mp h).2

theorem Aligned.of_kept (h : s.Aligned l) (hctx : (s'.heap l.target).ctx = (s.heap l.target).ctx)
    (hcancelled : ∀ ctx, s'.cancelled ctx = false → s.cancelled ctx = false) : s'.Aligned l := by
  obtain ⟨period, place⟩ := l
  cases place with
  | starting | looping | returned => trivial
  | checking ctx => exact h.trans hctx.symm
  | waiting ctx => exact fun hc => (h (hcancelled ctx hc)).trans hctx.symm

theorem busy_of_kept (hcancelled : ∀ ctx, s'.cancelled ctx = false → s.cancelled ctx = false)
    (h : s'.busy l = true) : s.busy l = true := by
  obtain ⟨period, place⟩ := l
  cases place with
  | starting | looping | checking ctx => rfl
  | returned => cases h
  | waiting ctx =>
    simp only [busy, Bool.not_eq_true'] at h ⊢
    exact hcancelled ctx h

/-- A loop that only returns reads nothing. -/
theorem aligned_of_not_busy (h : s.busy l = false) : s.Aligned l := by
  obtain ⟨period, place⟩ := l
  cases place with
  | starting | looping | returned => trivial
  | checking ctx => cases h
  | waiting ctx =>
    simp only [busy, Bool.not_eq_false'] at h
    exact fun hc => absurd (hc.symm.trans h) Bool.false_ne_true

/-- Once its context is cancelled, a loop that has settled only returns. -/
theorem busy_cancel_of_settled (h : s.Aligned l) (hsettled : l.place.settled = true) :
    (s.cancel l.target).busy l = false := by
  obtain ⟨period, place⟩ := l
  cases place with
  | starting | looping | checking ctx => cases hsettled
  | returned => rfl
  | waiting ctx =>
    simp only [busy, Bool.not_eq_false']
    by_contra hnot
    obtain ⟨hne, hc⟩ := cancel_cancelled_eq_false_iff.mp (Bool.eq_false_iff.mpr hnot)
    exact hne (h hc)

theorem Faithful.drop {id : Int} (h : s.Faithful) (hid : s.targets.lookup id = some ref) :
    (s.drop id ref).Faithful where
  toWellFormed := h.toWellFormed.drop hid
  aligned := fun l hl => (h.aligned l hl).of_kept rfl (fun _ => not_cancelled_of_cancel)
  quiet := fun l hl hm hb =>
    h.quiet l hl (lookup_of_drop hm) (busy_of_kept (fun _ => not_cancelled_of_cancel) hb)
  unused := h.unused
  judged := fun r hr => h.judged r (lookup_of_drop hr)

theorem Faithful.halt (h : s.Faithful) (hm : s.Mapped ref) (hsettled : s.AllSettled ref) :
    (s.halt ref).Faithful where
  toWellFormed := h.toWellFormed.halt hm
  aligned := fun l hl =>
    (h.aligned l hl).of_kept (halt_heap_ctx _) (fun _ => not_cancelled_of_cancel)
  quiet := by
    intro l hl hmapped hb
    by_cases htarget : l.target = ref
    · have hnot := busy_cancel_of_settled (h.aligned l hl) (hsettled l hl htarget)
      rw [htarget] at hnot
      rw [show (s.halt ref).busy l = (s.cancel ref).busy l from rfl, hnot] at hb
      cases hb
    · rw [halt_heap, if_neg htarget]
      exact h.quiet l hl (mapped_halt_iff.mp hmapped)
        (busy_of_kept (fun _ => not_cancelled_of_cancel) hb)
  unused := h.unused
  judged := by
    intro r hr
    rw [halt_heap_ctx, halt_heap]
    split
    · exact Target.judged_disable _ _
    · exact h.judged r (mapped_halt_iff.mp hr)

theorem mapped_renew_iff {r : Nat} : (s.renew ref).Mapped r ↔ s.Mapped r := by
  rw [Mapped, Mapped, renew_heap_id]
  rfl

theorem Faithful.renew (h : s.Faithful) (hm : s.Mapped ref)
    (hoff : (s.heap ref).config .enabled = false) (hneutral : (s.heap ref).Neutral) :
    (s.renew ref).Faithful where
  toWellFormed := h.toWellFormed.renew hm hoff
  aligned := by
    intro l hl
    rw [renew_loops, mem_append] at hl
    rcases hl with hl | hl
    · by_cases htarget : l.target = ref
      · -- the former loops only return
        refine aligned_of_not_busy (Bool.eq_false_iff.mpr fun hb => ?_)
        have hon := h.quiet l hl (htarget ▸ hm) (busy_of_kept (fun _ => not_cancelled_of_cancel) hb)
        rw [htarget, hoff] at hon
        cases hon
      · refine (h.aligned l hl).of_kept ?_ (fun _ => not_cancelled_of_cancel)
        rw [renew_heap, if_neg htarget]
    · obtain rfl := mem_singleton.mp hl
      trivial
  quiet := by
    intro l hl hmapped hb
    rw [renew_loops, mem_append] at hl
    rw [renew_heap]
    split
    · rfl
    · next htarget =>
      rcases hl with hl | hl
      · exact h.quiet l hl (mapped_renew_iff.mp hmapped)
          (busy_of_kept (fun _ => not_cancelled_of_cancel) hb)
      · obtain rfl := mem_singleton.mp hl
        exact absurd rfl htarget
  unused := fun ctx hctx => h.unused ctx (Nat.le_of_succ_le hctx)
  judged := by
    intro r hr
    rw [renew_heap]
    split
    · have hunused : (s.renew ref).outcomes s.nextCtx = [] := h.unused _ (Nat.le_refl _)
      rw [show ((s.heap ref).enable s.nextCtx).ctx = s.nextCtx from rfl, hunused]
      exact Target.judged_enable hneutral (Target.status_of_judged (h.judged ref hm) hoff) _
    · exact h.judged r (mapped_renew_iff.mp hr)

theorem create_outcomes (config : Config) : (s.create config).outcomes = s.outcomes := by
  unfold create
  split <;> rfl

theorem mapped_of_create {config : Config} {r : Nat} (hne : r ≠ s.nextRef)
    (hr : (s.create config).Mapped r) : s.Mapped r := by
  rw [Mapped, create_heap, if_neg hne, create_lookup] at hr
  split at hr
  · exact absurd hr hne
  · exact hr

theorem Faithful.create {config : Config} (h : s.Faithful)
    (hnone : s.targets.lookup (config .id) = none) : (s.create config).Faithful where
  toWellFormed := h.toWellFormed.create hnone
  aligned := by
    intro l hl
    obtain ⟨-, -, hcancelled⟩ := create_rest (s := s) config
    rw [create_loops, mem_append] at hl
    rcases hl with hl | hl
    · have hlt := (h.allocated l.toPeriod (mem_periods hl)).1
      refine (h.aligned l hl).of_kept ?_ (fun ctx hc => hcancelled ▸ hc)
      rw [create_heap, if_neg (Nat.ne_of_lt hlt)]
    · split at hl
      · obtain rfl := mem_singleton.mp hl
        trivial
      · exact absurd hl not_mem_nil
  quiet := by
    intro l hl hmapped hb
    obtain ⟨-, -, hcancelled⟩ := create_rest (s := s) config
    rw [create_loops, mem_append] at hl
    rcases hl with hl | hl
    · have hne := Nat.ne_of_lt (h.allocated l.toPeriod (mem_periods hl)).1
      rw [create_heap, if_neg hne]
      exact h.quiet l hl (mapped_of_create hne hmapped)
        (busy_of_kept (fun ctx hc => hcancelled ▸ hc) hb)
    · split at hl
      · next hon =>
        obtain rfl := mem_singleton.mp hl
        rw [create_heap, if_pos rfl]
        exact hon
      · exact absurd hl not_mem_nil
  unused := by
    intro ctx hctx
    rw [create_outcomes]
    refine h.unused ctx ?_
    rw [(create_rest config).2.1] at hctx
    omega
  judged := by
    intro r hr
    rw [create_outcomes, create_heap]
    split
    · rw [show (Target.new config s.nextCtx).ctx = s.nextCtx from rfl, h.unused _ (Nat.le_refl _)]
      exact Target.judged_new config _
    · next hne => exact h.judged r (mapped_of_create hne hr)

theorem Faithful.apply {op : Op} (h : s.Faithful) (hcalm : s.OpCalm op) :
    (s.apply op).Faithful := by
  refine apply_invariant h (fun id ref hid _ => h.drop hid) (fun _ _ ht => ht.create) ?_ ?_
  · rintro id ref rfl hid hoff
    exact h.renew (h.mapped_of_lookup hid) hoff (hcalm ref hid hoff)
  · rintro id ref rfl hid hon
    exact h.halt (h.mapped_of_lookup hid) (hcalm ref hid hon)

/-! ### The steps of a loop -/

/-- The status after a check that begins. -/
theorem Faithful.judged_beginCheck (h : s.Faithful) (ref : Nat) {r : Nat} (hr : s.Mapped r) :
    ((s.beginCheck ref).heap r).Judged (s.outcomes (s.heap r).ctx) := by
  rw [show (s.beginCheck ref).heap r = update s.heap ref (s.heap ref).countCheck r
    from rfl, update_apply]
  split
  · next heq =>
    subst heq
    exact (h.judged r hr).countCheck
  · exact h.judged r hr

/-- The status after a check that ends: under the context of an enabled target it has an
outcome, and a check of a target that was replaced or removed changes no other. -/
theorem Faithful.judged_finishCheck (h : s.Faithful) (hlt : ref < s.nextRef)
    (hon : s.Mapped ref → (s.heap ref).config .enabled = true) (answer : Answer) {r : Nat}
    (hr : s.Mapped r) :
    ((s.finishCheck ref (s.heap ref).ctx answer).heap r).Judged
      ((s.finishCheck ref (s.heap ref).ctx answer).outcomes (s.heap r).ctx) := by
  rw [show (s.finishCheck ref (s.heap ref).ctx answer).heap r =
    update s.heap ref ((s.heap ref).record answer) r from rfl, update_apply]
  unfold finishCheck
  dsimp only
  by_cases heq : r = ref
  · subst heq
    have hlive := h.live r ⟨hr, hon hr⟩
    have hjudged := h.judged r hr
    rw [if_pos rfl, hlive, if_neg Bool.false_ne_true, update_self]
    unfold Target.Judged at hjudged ⊢
    rw [if_pos (hon hr)] at hjudged
    rw [record_config, if_pos (hon hr)]
    exact fun hH hU => (hjudged hH hU).record hH hU answer
  · rw [if_neg heq]
    split
    · exact h.judged r hr
    · have hne : (s.heap r).ctx ≠ (s.heap ref).ctx :=
        fun hctx => heq (h.own r ref (h.lt_of_mapped hr) hlt hctx)
      rw [update_of_ne hne]
      exact h.judged r hr

theorem Aligned.of_sameShape (h : s.Aligned l) (hshape : SameShape s s') : s'.Aligned l :=
  h.of_kept (hshape.ctx _) (fun _ hc => hshape.cancelled ▸ hc)

theorem SameShape.busy_eq (hshape : SameShape s s') (l : Loop) : s'.busy l = s.busy l := by
  unfold busy
  rw [hshape.cancelled]

/-- A loop that makes a step other than to return was not only to return. -/
theorem busy_of_advances {move : Move} {s₁ : Monitor} {place : Place}
    (hcalm : ∀ l ∈ s.loops[k]?, move = .tick → s.toldToStop l = false)
    (hl : s.loops[k]? = some l) (hadv : Advances s l move s₁ place) (hplace : place ≠ .returned) :
    s.busy l = true := by
  cases hadv with
  | first hp | finish hp answer | enter hp => simp only [busy, hp]
  | tick hp =>
    have htold := hcalm l hl rfl
    simp only [toldToStop, hp] at htold
    simp only [busy, hp, htold, Bool.not_false]
  | done hp hc => exact absurd rfl hplace

theorem Calm.tick {move : Move} (hcalm : s.Calm (.loop k move)) :
    ∀ l ∈ s.loops[k]?, move = .tick → s.toldToStop l = false := by
  rintro l hl rfl
  exact hcalm l hl

theorem Faithful.move {move : Move} {s₁ : Monitor} {place : Place} (h : s.Faithful)
    (hl : s.loops[k]? = some l) (hcalm : s.Calm (.loop k move))
    (hadv : Advances s l move s₁ place) : (s₁.setPlace k l place).Faithful := by
  have hshape := SameShape.of_advances hl hadv
  have hmem := mem_of_getElem? hl
  have haligned := h.aligned l hmem
  have hlt := (h.allocated l.toPeriod (mem_periods hmem)).1
  have hloops : (s₁.setPlace k l place).loops = s.loops.set k { l with place := place } := by
    cases hadv <;> rfl
  -- a check ends under the context of its target
  have hcheck : ∀ {ctx : Nat}, l.place = .checking ctx → ctx = (s.heap l.target).ctx := by
    intro ctx hp
    simpa only [Aligned, hp] using haligned
  refine ⟨h.toWellFormed.of_sameShape hshape, ?_, ?_, ?_, ?_⟩
  · intro l' hl'
    rw [hloops] at hl'
    rcases mem_or_eq_of_mem_set hl' with hl' | rfl
    · exact (h.aligned l' hl').of_sameShape hshape
    · unfold Aligned
      rw [hshape.ctx, hshape.cancelled]
      cases hadv with
      | first hp | tick hp => rfl
      | finish hp answer | done hp hc => trivial
      | enter hp => exact fun _ => rfl
  · intro l' hl' hmapped hb
    rw [hloops] at hl'
    rw [hshape.mapped_iff] at hmapped
    rw [hshape.config]
    rcases mem_or_eq_of_mem_set hl' with hl' | rfl
    · rw [hshape.busy_eq] at hb
      exact h.quiet l' hl' hmapped hb
    · have hplace : place ≠ .returned := by
        rintro rfl
        cases hb
      exact h.quiet l hmem hmapped (busy_of_advances hcalm.tick hl hadv hplace)
  · intro ctx hctx
    rw [hshape.nextCtx] at hctx
    cases hadv with
    | first hp | tick hp | enter hp | done hp hc => exact h.unused ctx hctx
    | finish hp answer =>
      show (s.finishCheck l.target _ answer).outcomes ctx = []
      have hlt' := h.contexts l.target hlt
      rw [hcheck hp]
      unfold finishCheck
      dsimp only
      split
      · exact h.unused ctx hctx
      · rw [update_of_ne (by omega)]
        exact h.unused ctx hctx
  · intro r hr
    rw [hshape.mapped_iff] at hr
    rw [hshape.ctx]
    cases hadv with
    | first hp | tick hp => exact h.judged_beginCheck l.target hr
    | enter hp | done hp hc => exact h.judged r hr
    | finish hp answer =>
      have hbusy : s.busy l = true := by simp only [busy, hp]
      have hctx := hcheck hp
      subst hctx
      exact h.judged_finishCheck hlt (fun hm => h.quiet l hmem hm hbusy) answer hr

theorem Faithful.step {e : Event} (h : s.Faithful) (hcalm : s.Calm e) (hs : s.step e = some s') :
    s'.Faithful := by
  cases e with
  | call c =>
    simp only [Monitor.step] at hs
    split at hs <;> cases hs
    exact call_invariant (fun h hc => Faithful.apply h hc) h hcalm
  | loop k move =>
    obtain ⟨l, s₁, place, hl, hadv, rfl⟩ := moveLoop_cases hs
    exact h.move hl hcalm hadv

theorem Faithful.init : Faithful init where
  toWellFormed := WellFormed.init
  aligned := fun _ h => absurd h not_mem_nil
  quiet := fun _ h => absurd h not_mem_nil
  unused := fun _ _ => rfl
  judged := fun _ h => (nomatch h)

/-- **The status of a target.**  If every event comes at a good moment, the status of a target
is `unknown` while it is disabled, and else the verdict on the outcomes of the checks since
its monitoring was last started. -/
theorem status_eq_verdict (es : List Event) (s : Monitor)
    (hmeets : Runs.Meets step Calm init es) (hrun : run step init es = some s) (id : Int)
    (ref : Nat) (hid : s.targets.lookup id = some ref)
    (hH : 1 ≤ (s.heap ref).config .healthyThreshold)
    (hU : 1 ≤ (s.heap ref).config .unhealthyThreshold) :
    (s.heap ref).status =
      if (s.heap ref).config .enabled then
        verdict ((s.heap ref).config .healthyThreshold).toNat
          ((s.heap ref).config .unhealthyThreshold).toNat (s.outcomes (s.heap ref).ctx)
      else .unknown := by
  have h : s.Faithful :=
    run_invariant (fun h he hs => Faithful.step h he hs) Faithful.init hmeets hrun
  have hjudged := h.judged ref (h.mapped_of_lookup hid)
  unfold Target.Judged at hjudged
  split
  · next hon =>
    rw [if_pos hon] at hjudged
    exact (hjudged hH hU).status
  · next hoff =>
    rw [if_neg hoff] at hjudged
    exact hjudged

/-! ## Runs -/

/-- An HTTP target with these thresholds. -/
def webWith (healthyThreshold unhealthyThreshold : Int) : Config :=
  update (update web .healthyThreshold healthyThreshold) .unhealthyThreshold
    unhealthyThreshold

/-- A target passes a check and is disabled. -/
def paused : List Event :=
  .call (.addTarget (webWith 1 2)) :: checks 0 .first (.answered 200) ++
    [.call (.disableTarget 7), .loop 0 .done]

/-- It is enabled again, passes a check and fails two. -/
def resumed : List Event :=
  paused ++ .call (.enableTarget 7) :: checks 1 .first (.answered 204) ++
    checks 1 .tick (.answered 503) ++ checks 1 .tick (.answered 503)

theorem status_eq_verdict_resumed :
    Runs.Meets step Calm init resumed ∧
      (∃ s, run step init paused = some s ∧ s.targets.lookup 7 = some 0 ∧
        (s.heap 0).status = .unknown) ∧
      ∃ s, run step init resumed = some s ∧ s.targets.lookup 7 = some 0 ∧
        s.outcomes (s.heap 0).ctx = [false, false, true] ∧ (s.heap 0).status = .unhealthy := by
  have hmeets : Runs.Meets step Calm init resumed := by decide +kernel
  have hpaused : Runs.Meets step Calm init paused := by decide +kernel
  obtain ⟨t, ht, hidt, hHt, hUt, hoff⟩ : ∃ t, run step init paused = some t ∧
      t.targets.lookup 7 = some 0 ∧ 1 ≤ (t.heap 0).config .healthyThreshold ∧
      1 ≤ (t.heap 0).config .unhealthyThreshold ∧ (t.heap 0).config .enabled = false := by
    decide +kernel
  have hunknown := status_eq_verdict _ t hpaused ht 7 0 hidt hHt hUt
  rw [hoff, if_neg Bool.false_ne_true] at hunknown
  obtain ⟨s, hs, hid, houtcomes, hH, hU, hon⟩ : ∃ s, run step init resumed = some s ∧
      s.targets.lookup 7 = some 0 ∧ s.outcomes (s.heap 0).ctx = [false, false, true] ∧
      (s.heap 0).config .healthyThreshold = 1 ∧ (s.heap 0).config .unhealthyThreshold = 2 ∧
      (s.heap 0).config .enabled = true := by
    decide +kernel
  have hstatus := status_eq_verdict _ s hmeets hs 7 0 hid (by rw [hH]) (by rw [hU]; decide)
  rw [hH, hU, hon, houtcomes, if_pos rfl] at hstatus
  exact ⟨hmeets, ⟨t, ht, hidt, hunknown⟩, s, hs, hid, houtcomes, hstatus⟩

/-- One check passes before a pause and one after it. -/
def passesAroundPause : List Event :=
  .call (.addTarget (webWith 2 2)) :: checks 0 .first (.answered 200) ++
    [.call (.disableTarget 7), .loop 0 .done, .call (.enableTarget 7)] ++
    checks 1 .first (.answered 200)

/-- A check runs while the target is disabled. -/
def disabledInCheck : List Event :=
  [.call (.addTarget web), .loop 0 .first, .call (.disableTarget 7),
    .loop 0 (.finish (.failed "context canceled"))]

/-- The same, and the target is enabled again before the check ends. -/
def cutShort : List Event :=
  [.call (.addTarget web), .loop 0 .first, .call (.disableTarget 7), .call (.enableTarget 7),
    .loop 0 (.finish (.failed "context canceled"))]

/-- The success before a pause counts after it; a check that runs when its target is disabled
sets the status of the disabled target; and a check that was cut short makes the new period
unhealthy before it has an outcome. -/
theorem status_ne_verdict :
    (∃ s, run step init passesAroundPause = some s ∧ s.targets.lookup 7 = some 0 ∧
      s.outcomes (s.heap 0).ctx = [true] ∧ (s.heap 0).status = .healthy ∧
      verdict 2 2 [true] = .unknown) ∧
    (∃ s, run step init disabledInCheck = some s ∧ s.targets.lookup 7 = some 0 ∧
      (s.heap 0).config .enabled = false ∧ (s.heap 0).status = .unhealthy) ∧
    ∃ s, run step init cutShort = some s ∧ s.targets.lookup 7 = some 0 ∧
      s.outcomes (s.heap 0).ctx = [] ∧ (s.heap 0).status = .unhealthy := by decide +kernel

end Monitor

end Newt.HealthCheck
