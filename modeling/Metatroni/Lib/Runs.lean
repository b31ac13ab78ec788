import Mathlib.Logic.Basic

/-!
# Runs of labelled transition functions

A system is a function that takes a label and a state to the next state, or to
`none` where the label is not enabled. A run may be restricted by a guard, a
condition on the label and the state before the step; the unrestricted runs are
those of the guard that always holds.
-/

namespace Runs

variable {σ ι : Type}

/-- A run from one state to another, all of whose steps meet the guard. -/
inductive Run (step : ι → σ → Option σ) (guard : ι → σ → Prop) : σ → List ι → σ → Prop
  | nil (s : σ) : Run step guard s [] s
  | cons {s s' s'' : σ} {l : ι} {ls : List ι} (hguard : guard l s) (hstep : step l s = some s')
      (rest : Run step guard s' ls s'') : Run step guard s (l :: ls) s''

variable {step : ι → σ → Option σ} {guard : ι → σ → Prop} {s s' : σ} {ls : List ι}

/-- What every guarded step preserves holds at the end of every guarded run. -/
theorem Run.invariant {Inv : σ → Prop} (run : Run step guard s ls s')
    (hstep : ∀ l s s', guard l s → step l s = some s' → Inv s → Inv s') (h : Inv s) : Inv s' := by
  induction run with
  | nil => exact h
  | cons hg hs _ ih => exact ih (hstep _ _ _ hg hs h)

/-- A run goes on by one step. -/
theorem Run.snoc {s'' : σ} {l : ι} (run : Run step guard s ls s') (hguard : guard l s')
    (hstep : step l s' = some s'') : Run step guard s (ls ++ [l]) s'' := by
  induction run with
  | nil => exact .cons hguard hstep (.nil _)
  | cons hg hs _ ih => exact .cons hg hs (ih hguard hstep)

/-- Take the steps of a list of labels. -/
def exec (step : ι → σ → Option σ) : List ι → σ → Option σ
  | [], s => some s
  | l :: ls, s => (step l s).bind (exec step ls)

/-- The guard holds before each step of a list of labels. -/
def Guarded (step : ι → σ → Option σ) (guard : ι → σ → Prop) : List ι → σ → Prop
  | [], _ => True
  | l :: ls, s => guard l s ∧ ∀ s', step l s = some s' → Guarded step guard ls s'

theorem Run.exec_eq (run : Run step guard s ls s') : exec step ls s = some s' := by
  induction run with
  | nil => rfl
  | cons _ hs _ ih => exact Option.bind_eq_some_iff.mpr ⟨_, hs, ih⟩

/-- Each initial part of a run can be taken, and ends where the next step is guarded or
where the run ends. -/
theorem Run.exec_of_isPrefix {ls' : List ι} (run : Run step guard s ls s') (h : ls' <+: ls) :
    ∃ t, exec step ls' s = some t ∧ (t = s' ∨ ∃ l, guard l t) := by
  induction run generalizing ls' with
  | nil s =>
      obtain rfl := List.prefix_nil.mp h
      exact ⟨s, rfl, .inl rfl⟩
  | @cons s s₁ s' l ls hg hs _ ih =>
      cases ls' with
      | nil => exact ⟨s, rfl, .inr ⟨l, hg⟩⟩
      | cons l' ls' =>
          obtain ⟨rfl, hrest⟩ := List.cons_prefix_cons.mp h
          obtain ⟨t, ht, hend⟩ := ih hrest
          exact ⟨t, Option.bind_eq_some_iff.mpr ⟨s₁, hs, ht⟩, hend⟩

theorem run_of_exec (h : exec step ls s = some s') (hg : Guarded step guard ls s) :
    Run step guard s ls s' := by
  induction ls generalizing s with
  | nil =>
      obtain rfl := Option.some.inj h
      exact .nil s
  | cons l ls ih =>
      obtain ⟨t, ht, hrest⟩ := Option.bind_eq_some_iff.mp h
      exact .cons hg.1 ht (ih hrest (hg.2 t ht))

theorem guarded_true (ls : List ι) (s : σ) : Guarded step (fun _ _ => True) ls s := by
  induction ls generalizing s with
  | nil => trivial
  | cons l ls ih => exact ⟨trivial, fun s' _ => ih s'⟩

theorem guarded_congr {guard' : ι → σ → Prop} (h : ∀ l s, guard l s ↔ guard' l s) (ls : List ι)
    (s : σ) : Guarded step guard ls s ↔ Guarded step guard' ls s := by
  induction ls generalizing s with
  | nil => rfl
  | cons l ls ih => simp only [Guarded, h, ih]

/-- Take the steps of a list of labels as long as the guard holds. -/
def execGuarded (step : ι → σ → Option σ) (guard : ι → σ → Prop) [∀ l s, Decidable (guard l s)] :
    List ι → σ → Option σ
  | [], s => some s
  | l :: ls, s => if guard l s then (step l s).bind (execGuarded step guard ls) else none

theorem run_of_execGuarded [∀ l s, Decidable (guard l s)]
    (h : execGuarded step guard ls s = some s') : Run step guard s ls s' := by
  induction ls generalizing s with
  | nil =>
      obtain rfl := Option.some.inj h
      exact .nil s
  | cons l ls ih =>
      rw [execGuarded, Option.ite_none_right_eq_some] at h
      obtain ⟨t, ht, hrest⟩ := Option.bind_eq_some_iff.mp h.2
      exact .cons h.1 ht (ih hrest)

end Runs
