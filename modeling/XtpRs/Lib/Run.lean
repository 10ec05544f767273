import Mathlib

/-!
# Runs of a labelled step function

A system is given by a function `step : σ → α → Option σ`: in the state `s` the action `a` is
refused (`none`) or leads to one state. Whatever is not determined by the state, the scheduling
of tasks, the outcome of an operation, the reading of a clock, is part of the action, so a run
is a list of actions and can be evaluated.

`Steps step P s t` says that `t` is reached from `s` by steps that all meet the condition
`P : σ → α → Prop` on the state before the step and its action. A property of every reachable
state is a property of `Steps step (fun _ _ => True) s`; a property of the runs that avoid some
steps puts the restriction into `P`.

## Main definitions

* `run`: the state after a list of actions.
* `Steps`, `Reachable`: the states reached under a condition, and without one.
* `pairStep`: two runs side by side, for properties that compare them.

## Main results

* `Steps.invariant`: what holds initially and is kept by every step holds in every state reached.
* `run_invariant`: the same for a relation between the actions made so far and the state.
* `exists_run`: the same where no action is refused.
* `Steps.of_run`, `exists_steps_of_run`: an evaluated run gives reached states.
* `Steps.map`: a step-by-step projection maps the states reached to states reached.
-/

namespace XtpRs.Lib

variable {σ α τ β : Type*}

/-- The state reached by the actions of a list, in order; `none` when one of them is refused. -/
def run (step : σ → α → Option σ) : σ → List α → Option σ
  | s, [] => some s
  | s, a :: as => (step s a).bind fun t => run step t as

theorem run_append_singleton (step : σ → α → Option σ) (s : σ) (as : List α) (a : α) :
    run step s (as ++ [a]) = (run step s as).bind fun t => step t a := by
  induction as generalizing s with
  | nil => simp [run]
  | cons b as ih =>
    rw [List.cons_append, run, run, Option.bind_assoc]
    exact congrArg (Option.bind (step s b)) (funext fun t => ih t)

/-- **Invariant rule with history.** A relation between the actions made so far and the state that
holds at the beginning and is kept by every step holds after every run. -/
theorem run_invariant {step : σ → α → Option σ} {s t : σ} {as : List α} {I : List α → σ → Prop}
    (h0 : I [] s) (hstep : ∀ as t a u, I as t → step t a = some u → I (as ++ [a]) u)
    (h : run step s as = some t) : I as t := by
  induction as using List.reverseRecOn generalizing t with
  | nil =>
    rw [run, Option.some.injEq] at h
    exact h ▸ h0
  | append_singleton as a ih =>
    rw [run_append_singleton, Option.bind_eq_some_iff] at h
    obtain ⟨u, hu, ha⟩ := h
    exact hstep as u a t (ih hu) ha

/-- A relation between the actions made so far and the state that holds at the beginning, lets every
action be made and is kept by it: every list of actions can be made, and the relation holds after
it. -/
theorem exists_run {step : σ → α → Option σ} {s : σ} {I : List α → σ → Prop} (h0 : I [] s)
    (hstep : ∀ as t a, I as t → ∃ u, step t a = some u ∧ I (as ++ [a]) u) (as : List α) :
    ∃ t, run step s as = some t ∧ I as t := by
  induction as using List.reverseRecOn with
  | nil => exact ⟨s, rfl, h0⟩
  | append_singleton as a ih =>
    obtain ⟨t, ht, hI⟩ := ih
    obtain ⟨u, hu, hIu⟩ := hstep as t a hI
    exact ⟨u, by rw [run_append_singleton, ht, Option.bind_some, hu], hIu⟩

/-- The states reached from `s` by steps that all meet the condition `P`. -/
inductive Steps (step : σ → α → Option σ) (P : σ → α → Prop) (s : σ) : σ → Prop
  | refl : Steps step P s s
  | tail {t u : σ} {a : α} (h : Steps step P s t) (hP : P t a) (hstep : step t a = some u) :
      Steps step P s u

/-- The states reached from `s` by any steps. -/
abbrev Reachable (step : σ → α → Option σ) (s : σ) : σ → Prop :=
  Steps step (fun _ _ => True) s

namespace Steps

variable {step : σ → α → Option σ} {P Q : σ → α → Prop} {s t u : σ}

/-- **Invariant rule.** A property of the initial state that every step under the condition
keeps holds in every state reached. -/
theorem invariant {I : σ → Prop} (h0 : I s)
    (hstep : ∀ t a u, I t → P t a → step t a = some u → I u) (h : Steps step P s t) : I t := by
  induction h with
  | refl => exact h0
  | tail _ hP hs ih => exact hstep _ _ _ ih hP hs

theorem mono (hPQ : ∀ t a, P t a → Q t a) (h : Steps step P s t) : Steps step Q s t := by
  induction h with
  | refl => exact .refl
  | tail _ hP hs ih => exact .tail ih (hPQ _ _ hP) hs

theorem trans (hst : Steps step P s t) (htu : Steps step P t u) : Steps step P s u := by
  induction htu with
  | refl => exact hst
  | tail _ hP hs ih => exact .tail ih hP hs

theorem head {a : α} (hP : P s a) (hs : step s a = some t) (h : Steps step P t u) :
    Steps step P s u :=
  (Steps.refl.tail hP hs).trans h

/-- An evaluated list of actions is a run, under every condition that its actions meet in all
states. -/
theorem of_run : {as : List α} → {s : σ} → (∀ a ∈ as, ∀ u, P u a) → run step s as = some t →
    Steps step P s t
  | [], s, _, h => by
      rw [run, Option.some.injEq] at h
      exact h ▸ .refl
  | a :: as, s, hP, h => by
      obtain ⟨u, hu, hrest⟩ := Option.bind_eq_some_iff.mp h
      have hP' : ∀ b ∈ as, ∀ u, P u b := fun b hb => hP b (List.mem_cons_of_mem a hb)
      exact head (hP a List.mem_cons_self s) hu (of_run hP' hrest)

/-- **Projection rule.** Let every step of one system be, after projection by `f`, either no step
or a step of a second system. Then states reached project to states reached. -/
theorem map {step' : τ → β → Option τ} {P' : τ → β → Prop} (f : σ → τ)
    (hsim : ∀ t a u, P t a → step t a = some u →
      f u = f t ∨ ∃ b, P' (f t) b ∧ step' (f t) b = some (f u))
    (h : Steps step P s t) : Steps step' P' (f s) (f t) := by
  induction h with
  | refl => exact .refl
  | tail _ hP hs ih =>
    rcases hsim _ _ _ hP hs with heq | ⟨b, hP', hs'⟩
    · exact heq ▸ ih
    · exact .tail ih hP' hs'

end Steps

/-- A list of actions that ends in a state with a decidable property witnesses a state reached
with that property. -/
theorem exists_steps_of_run {step : σ → α → Option σ} {P : σ → α → Prop} {s : σ} {l : List α}
    {p : σ → Prop} [DecidablePred p] (hP : ∀ a ∈ l, ∀ u, P u a)
    (h : (run step s l).any (fun t => decide (p t)) = true) :
    ∃ t, Steps step P s t ∧ p t := by
  cases ht : run step s l with
  | none => simp [ht] at h
  | some t => exact ⟨t, .of_run hP ht, by simpa [ht] using h⟩

/-- Two runs side by side: a step of each. -/
def pairStep (step : σ → α → Option σ) (s : σ × σ) (a : α × α) : Option (σ × σ) :=
  (step s.1 a.1).bind fun t => (step s.2 a.2).map fun u => (t, u)

theorem pairStep_eq_some_iff {step : σ → α → Option σ} {s t : σ × σ} {a : α × α} :
    pairStep step s a = some t ↔ step s.1 a.1 = some t.1 ∧ step s.2 a.2 = some t.2 := by
  simp only [pairStep, Option.bind_eq_some_iff, Option.map_eq_some_iff]
  constructor
  · rintro ⟨u, hu, v, hv, rfl⟩
    exact ⟨hu, hv⟩
  · exact fun h => ⟨t.1, h.1, t.2, h.2, rfl⟩

/-- The step function that refuses the actions for which the check `p` fails. -/
def guarded (step : σ → α → Option σ) (p : σ → α → Bool) (s : σ) (a : α) : Option σ :=
  if p s a then step s a else none

/-- As `exists_steps_of_run`, for a condition that is checked along the run. -/
theorem exists_steps_of_guarded_run {step : σ → α → Option σ} {P : σ → α → Prop}
    {p : σ → α → Bool} {s : σ} {l : List α} {q : σ → Prop} [DecidablePred q]
    (hp : ∀ s a, p s a = true → P s a)
    (h : (run (guarded step p) s l).any (fun t => decide (q t)) = true) :
    ∃ t, Steps step P s t ∧ q t := by
  obtain ⟨t, ht, hq⟩ : ∃ t, Reachable (guarded step p) s t ∧ q t :=
    exists_steps_of_run (fun _ _ _ => trivial) h
  refine ⟨t, ht.map id fun u a v _ hs => .inr ⟨a, ?_⟩, hq⟩
  unfold guarded at hs
  split_ifs at hs with hps
  exact ⟨hp u a hps, hs⟩

end XtpRs.Lib
