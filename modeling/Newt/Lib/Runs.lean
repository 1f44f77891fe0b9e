import Mathlib.Logic.Function.Basic
import Mathlib.Tactic.Common

/-!
# Runs of a partial transition function

A system is a step function on states and events, undefined where an event is
not possible.  `run` is the state after a sequence of events and `Meets` says
that every event of the sequence meets a condition in the state in which it
happens.  `run_invariant` is the induction every safety result uses: what holds
at the start and is kept by every step that meets the condition holds in every
state reached by such steps, `run_always` is the one for systems without a
condition, and `run_progress` adds that the run does not get stuck.

A loop is a run too.  `run_pointwise` is for loops over the keys of a map whose
iterations touch their own key only.
-/

namespace Runs

open List Function

variable {σ ε : Type*} {step : σ → ε → Option σ}

/-- The state after a sequence of events. -/
def run (step : σ → ε → Option σ) : σ → List ε → Option σ
  | s, [] => some s
  | s, e :: es => (step s e).bind (fun s' => run step s' es)

/-- Every event meets the condition in the state in which it happens. -/
def Meets (step : σ → ε → Option σ) (C : σ → ε → Prop) : σ → List ε → Prop
  | _, [] => True
  | s, e :: es => C s e ∧ ∀ s' ∈ step s e, Meets step C s' es

variable {C : σ → ε → Prop}

instance decidableMeets [∀ s e, Decidable (C s e)] :
    ∀ (s : σ) (es : List ε), Decidable (Meets step C s es)
  | _, [] => isTrue trivial
  | s, e :: es =>
    have : ∀ s', Decidable (Meets step C s' es) := fun s' => decidableMeets s' es
    inferInstanceAs (Decidable (C s e ∧ ∀ s' ∈ step s e, Meets step C s' es))

variable {es : List ε}

theorem run_cons {s s' : σ} {e : ε} :
    run step s (e :: es) = some s' ↔ ∃ t, step s e = some t ∧ run step t es = some s' := by
  rw [run]
  exact Option.bind_eq_some_iff

theorem run_append {s t s' : σ} {es es' : List ε} (h : run step s es = some t)
    (h' : run step t es' = some s') : run step s (es ++ es') = some s' := by
  induction es generalizing s with
  | nil =>
    cases h
    exact h'
  | cons e es ih =>
    obtain ⟨u, hstep, hrest⟩ := run_cons.mp h
    exact run_cons.mpr ⟨u, hstep, ih hrest⟩

/-- One more entry at the end of a log. -/
theorem forall_mem_concat {α : Type*} {p : α → Prop} {l : List α} {a : α} (hl : ∀ x ∈ l, p x)
    (ha : p a) : ∀ x ∈ l ++ [a], p x :=
  forall_mem_append.mpr ⟨hl, forall_mem_singleton.mpr ha⟩

variable {Inv : σ → Prop}

/-- **Invariants of runs**: what every step that meets the condition keeps. -/
theorem run_invariant
    (hstep : ∀ {s s' : σ} {e : ε}, Inv s → C s e → step s e = some s' → Inv s') {s s' : σ}
    (hinit : Inv s) (hmeets : Meets step C s es) (hrun : run step s es = some s') :
    Inv s' := by
  induction es generalizing s with
  | nil =>
    cases hrun
    exact hinit
  | cons e es ih =>
    obtain ⟨t, ht, hrest⟩ := run_cons.mp hrun
    obtain ⟨hc, hmeets⟩ := hmeets
    exact ih (hstep hinit hc ht) (hmeets t ht) hrest

theorem meets_of_forall (h : ∀ s, ∀ e ∈ es, C s e) (s : σ) :
    Meets step C s es := by
  induction es generalizing s with
  | nil => trivial
  | cons e es ih =>
    exact ⟨h s e mem_cons_self, fun s' _ => ih (fun s d hd => h s d (mem_cons_of_mem e hd)) s'⟩

/-- What every step keeps, whatever it is. -/
theorem run_always (hstep : ∀ {s s' : σ} {e : ε}, Inv s → step s e = some s' → Inv s')
    {s s' : σ} (hinit : Inv s) (hrun : run step s es = some s') : Inv s' :=
  run_invariant (fun hinv (_ : True) hs => hstep hinv hs) hinit
    (meets_of_forall (fun _ _ _ => trivial) s) hrun

/-- **Runs that do not get stuck**: if every step that meets the condition is
possible and keeps the invariant, so is every run of such steps. -/
theorem run_progress
    (hstep : ∀ (s : σ) (e : ε), Inv s → C s e → ∃ s', step s e = some s' ∧ Inv s') {s : σ}
    (hinit : Inv s) (hmeets : Meets step C s es) :
    ∃ s', run step s es = some s' ∧ Inv s' := by
  induction es generalizing s with
  | nil => exact ⟨s, rfl, hinit⟩
  | cons e es ih =>
    obtain ⟨hc, hmeets⟩ := hmeets
    obtain ⟨t, ht, hinv⟩ := hstep s e hinit hc
    obtain ⟨s', hrun, hinv'⟩ := ih hinv (hmeets t ht)
    exact ⟨s', run_cons.mpr ⟨t, ht, hrun⟩, hinv'⟩

section Pointwise

variable {κ ν : Type*} [DecidableEq κ] {view : σ → κ → ν} {key : ε → κ}

/-- **Loops over distinct keys**: if the event of a key changes what is at that key and
nothing else, a run over distinct keys changes what was there at the start. -/
theorem run_pointwise {g : κ → ν → ν}
    (hstep : ∀ (s s' : σ) (e : ε), step s e = some s' →
      view s' = update (view s) (key e) (g (key e) (view s (key e))))
    {s s' : σ} {es : List ε} (hnd : (es.map key).Nodup) (hrun : run step s es = some s') (k : κ) :
    view s' k = if k ∈ es.map key then g k (view s k) else view s k := by
  induction es generalizing s with
  | nil =>
    cases hrun
    rfl
  | cons e es ih =>
    obtain ⟨t, ht, hrest⟩ := run_cons.mp hrun
    obtain ⟨hnotin, hnd⟩ := nodup_cons.mp hnd
    rw [ih hnd hrest, hstep s t e ht, map_cons]
    by_cases hk : k = key e
    · subst hk
      rw [if_neg hnotin, if_pos mem_cons_self, update_self]
    · rw [update_of_ne hk]
      simp only [mem_cons, hk, false_or]

end Pointwise

end Runs
