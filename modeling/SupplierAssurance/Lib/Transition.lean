import Mathlib.Algebra.GroupWithZero.Nat
import Mathlib.Order.Defs.PartialOrder

/-! # Transition systems given by a partial step function

Every state machine of this development is a function `step : σ → α → Option σ`:
`step s a = none` says that the action `a` is not enabled in `s`.  This module
holds what all of them share.

* `run` — the executable run over a list of actions, used to replay a trace; `runWhen`
  also stops at a step that fails a given test.
* `StepsWhen good` — the states reached by runs whose every step meets `good`,
  a condition on the state before the step and on the action taken.
* `StepsWhen.invariant` and `StepsWhen.related` — the two induction rules: what
  holds at the start and is kept by each step holds of every state reached, and
  a preorder that each step respects relates the two ends of a run.
* `RunsWhen` and `RunsWhen.rank` — a run with its actions, and the progress rule: what lowers
  a rank happens no more often than the rank allows.
* `tally` — a quantity summed over the parties of a system, of which a step moves one.
-/

namespace SupplierAssurance.Lib

universe u v

variable {σ : Type u} {α : Type v}

/-- Run the actions of a list in order; `none` as soon as one is not enabled. -/
def run (step : σ → α → Option σ) : σ → List α → Option σ
  | s, [] => some s
  | s, a :: rest => (step s a).bind (run step · rest)

/-- `StepsWhen step good s t`: some run leads from `s` to `t`, and each of its
    steps is taken in a state and with an action that meet `good`. -/
inductive StepsWhen (step : σ → α → Option σ) (good : σ → α → Prop) (s : σ) : σ → Prop
  | refl : StepsWhen step good s s
  | tail {t u : σ} {a : α} : StepsWhen step good s t → good t a → step t a = some u →
      StepsWhen step good s u

/-- `Steps step s t`: some run leads from `s` to `t`. -/
abbrev Steps (step : σ → α → Option σ) : σ → σ → Prop :=
  StepsWhen step fun _ _ => True

variable {step : σ → α → Option σ} {good : σ → α → Prop} {s t u : σ}

theorem Steps.snoc {a : α} (steps : Steps step s t) (moved : step t a = some u) : Steps step s u :=
  .tail steps trivial moved

/-- Dropping the condition on the steps leaves a run. -/
theorem StepsWhen.steps (steps : StepsWhen step good s t) : Steps step s t := by
  induction steps with
  | refl => exact .refl
  | tail _ _ moved ih => exact ih.snoc moved

/-- The invariant rule.  The step case may use `good`. -/
theorem StepsWhen.invariant {I : σ → Prop} (steps : StepsWhen step good s t) (base : I s)
    (keep : ∀ {t a u}, I t → good t a → step t a = some u → I u) : I t := by
  induction steps with
  | refl => exact base
  | tail _ met moved ih => exact keep ih met moved

/-- A preorder that every step from a state satisfying the invariant `I` respects
    relates the two ends of a run that starts in such a state. -/
theorem StepsWhen.related {I : σ → Prop} {R : σ → σ → Prop} (steps : StepsWhen step good s t)
    (base : I s) (keep : ∀ {t a u}, I t → good t a → step t a = some u → I u)
    (refl : ∀ s, R s s) (trans : ∀ {s t u}, R s t → R t u → R s u)
    (respects : ∀ {t a u}, I t → good t a → step t a = some u → R t u) : R s t := by
  have both : I t ∧ R s t := by
    induction steps with
    | refl => exact ⟨base, refl s⟩
    | tail _ met moved ih => exact ⟨keep ih.1 met moved, trans ih.2 (respects ih.1 met moved)⟩
  exact both.2

theorem StepsWhen.trans (first : StepsWhen step good s t) (second : StepsWhen step good t u) :
    StepsWhen step good s u := by
  induction second with
  | refl => exact first
  | tail _ met moved ih => exact .tail ih met moved

/-- A replayed trace is a run. -/
theorem steps_of_run {actions : List α} (replayed : run step s actions = some t) :
    Steps step s t := by
  induction actions generalizing s with
  | nil =>
    simp only [run, Option.some.injEq] at replayed
    subst replayed
    exact .refl
  | cons a rest ih =>
    simp only [run, Option.bind_eq_some_iff] at replayed
    obtain ⟨next, moved, replayed⟩ := replayed
    exact (Steps.snoc .refl moved).trans (ih replayed)

/-- Run the actions of a list as long as each of them passes `test` where it is taken. -/
def runWhen (step : σ → α → Option σ) (test : σ → α → Bool) : σ → List α → Option σ
  | s, [] => some s
  | s, a :: rest => if test s a then (step s a).bind (runWhen step test · rest) else none

theorem stepsWhen_of_runWhen {test : σ → α → Bool} {actions : List α}
    (sound : ∀ s, ∀ a ∈ actions, test s a = true → good s a)
    (replayed : runWhen step test s actions = some t) :
    StepsWhen step good s t := by
  induction actions generalizing s with
  | nil =>
    simp only [runWhen, Option.some.injEq] at replayed
    subst replayed
    exact .refl
  | cons a rest ih =>
    simp only [runWhen] at replayed
    split at replayed
    next passed =>
      obtain ⟨next, moved, replayed⟩ := Option.bind_eq_some_iff.mp replayed
      have first : StepsWhen step good s next :=
        .tail .refl (sound s a List.mem_cons_self passed) moved
      exact first.trans (ih (fun s a member => sound s a (List.mem_cons_of_mem _ member)) replayed)
    next => cases replayed

/-! ## Progress -/

/-- `RunsWhen step good s actions t`: the actions lead from `s` to `t`, and each of them meets
    `good` where it is taken. -/
inductive RunsWhen (step : σ → α → Option σ) (good : σ → α → Prop) : σ → List α → σ → Prop
  | nil {s : σ} : RunsWhen step good s [] s
  | cons {s t u : σ} {a : α} {rest : List α} : good s a → step s a = some t →
      RunsWhen step good t rest u → RunsWhen step good s (a :: rest) u

theorem runsWhen_of_run {actions : List α} (met : ∀ a ∈ actions, ∀ s, good s a)
    (ran : run step s actions = some t) : RunsWhen step good s actions t := by
  induction actions generalizing s with
  | nil =>
    simp only [run, Option.some.injEq] at ran
    subst ran
    exact .nil
  | cons a rest ih =>
    obtain ⟨next, moved, ran⟩ := Option.bind_eq_some_iff.mp ran
    exact .cons (met a List.mem_cons_self s) moved
      (ih (fun a member => met a (List.mem_cons_of_mem _ member)) ran)

theorem runsWhen_of_runWhen {test : σ → α → Bool} {actions : List α}
    (sound : ∀ s, ∀ a ∈ actions, test s a = true → good s a)
    (replayed : runWhen step test s actions = some t) : RunsWhen step good s actions t := by
  induction actions generalizing s with
  | nil =>
    simp only [runWhen, Option.some.injEq] at replayed
    subst replayed
    exact .nil
  | cons a rest ih =>
    simp only [runWhen] at replayed
    split at replayed
    next passed =>
      obtain ⟨next, moved, replayed⟩ := Option.bind_eq_some_iff.mp replayed
      exact .cons (sound s a List.mem_cons_self passed) moved
        (ih (fun s a member => sound s a (List.mem_cons_of_mem _ member)) replayed)
    next => cases replayed

/-- The progress rule.  A counted action lowers the rank; an action may raise the rank by as
    much as it adds to the credit.  So rank and credit bound how often a counted action occurs. -/
theorem RunsWhen.rank {I : σ → Prop} {actions : List α} (runs : RunsWhen step good s actions t)
    (rank credit : σ → Nat) (counts : α → Bool) (base : I s)
    (keep : ∀ {s a t}, I s → good s a → step s a = some t →
      I t ∧ rank t + (if counts a then 1 else 0) + credit s ≤ rank s + credit t) :
    I t ∧ rank t + actions.countP counts + credit s ≤ rank s + credit t := by
  induction runs with
  | nil => exact ⟨base, by simp⟩
  | cons met moved _ ih =>
    obtain ⟨kept, lowered⟩ := keep base met moved
    obtain ⟨holds, bound⟩ := ih kept
    rw [List.countP_cons]
    exact ⟨holds, by omega⟩

/-! ## Sums over the parties -/

def tally (f : α → Nat) (parties : List α) : Nat :=
  (parties.map f).sum

theorem tally_concat (f : α → Nat) (parties : List α) (a : α) :
    tally f (parties ++ [a]) = tally f parties + f a := by
  simp [tally]

/-- The party at `index` changes from `a` to `b`. -/
theorem tally_set {f : α → Nat} {parties : List α} {index : Nat} {a : α}
    (at_ : parties[index]? = some a) (b : α) :
    tally f (parties.set index b) + f a = tally f parties + f b := by
  induction parties generalizing index with
  | nil => cases at_
  | cons first rest ih =>
    cases index with
    | zero =>
      simp only [List.getElem?_cons_zero, Option.some.injEq] at at_
      subst at_
      simp only [tally, List.set_cons_zero, List.map_cons, List.sum_cons]
      omega
    | succ index =>
      have moved := ih (List.getElem?_cons_succ ▸ at_)
      simp only [tally, List.set_cons_succ, List.map_cons, List.sum_cons] at moved ⊢
      omega

/-- The party with the key `key` changes from `a` to `f a`. -/
theorem tally_map_key {κ : Type v} [DecidableEq κ] (g : α → Nat) (key : α → κ) (f : α → α)
    {parties : List α} {a : α} (distinct : (parties.map key).Nodup) (member : a ∈ parties) :
    tally g (parties.map fun b => if key b = key a then f b else b) + g a =
      tally g parties + g (f a) := by
  induction parties with
  | nil => cases member
  | cons first rest ih =>
    rw [List.map_cons, List.nodup_cons] at distinct
    rw [List.map_cons]
    rcases List.mem_cons.mp member with rfl | later
    · have others : rest.map (fun b => if key b = key a then f b else b) = rest := by
        refine (List.map_congr_left fun b isRest => ?_).trans (List.map_id' rest)
        exact if_neg fun same => distinct.1 (List.mem_map.mpr ⟨b, isRest, same⟩)
      rw [others, if_pos rfl]
      simp only [tally, List.map_cons, List.sum_cons]
      omega
    · have differ : key first ≠ key a := fun same =>
        distinct.1 (List.mem_map.mpr ⟨a, later, same.symm⟩)
      have moved := ih distinct.2 later
      rw [if_neg differ]
      simp only [tally, List.map_cons, List.sum_cons] at moved ⊢
      omega

end SupplierAssurance.Lib
