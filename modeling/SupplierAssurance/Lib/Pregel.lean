import Mathlib.Data.List.Sort

/-! # A checkpointed super-step engine

A graph of nodes over shared channel values.  A super-step runs the pending nodes on the
same values; when all of them return, their updates are merged in an order that the engine
chooses, the nodes they trigger become pending, and this is the next checkpoint.  An
exception of a node leaves the last checkpoint in place and leaves the invocation.  A node
may interrupt instead: the invocation returns, the values stay, and the node stays pending,
to be run again with the value of a later resume.

`env` is what the nodes read beside the values — services and clocks — and is drawn for
each invocation.
-/

namespace SupplierAssurance.Lib

universe u

/-- How the run of one node ends. -/
inductive Outcome (υ ι ε : Type u) where
  | update (u : υ)
  | interrupt (value : ι)
  | raise (e : ε)

structure Checkpoint (ν σ ι : Type u) where
  values : σ
  next : List ν
  interrupts : List ι

/-- The order in which an engine merges the updates of nodes that run together. -/
structure MergeOrder (ν : Type u) where
  arrange : List ν → List ν
  perm : ∀ pending, (arrange pending).Perm pending

namespace MergeOrder

variable {ν : Type u}

/-- Sorted by a key. -/
def sortedBy (key : ν → Nat) : MergeOrder ν where
  arrange := List.insertionSort fun a b => key a ≤ key b
  perm := List.perm_insertionSort _

variable (order : MergeOrder ν)

@[simp]
theorem arrange_singleton (n : ν) : order.arrange [n] = [n] :=
  List.perm_singleton.mp (order.perm [n])

theorem mem_arrange {pending : List ν} {n : ν} : n ∈ order.arrange pending ↔ n ∈ pending :=
  (order.perm pending).mem_iff

end MergeOrder

/-- Nodes `ν` over values `σ`, with updates `υ`, interrupt values `ι`, resume values `ρ`,
    exceptions `ε`, inputs `κ` and environments `η`. -/
structure Pregel (ν σ υ ι ρ ε κ η : Type u) where
  /-- The values that an input leads to, on a fresh thread or over existing values. -/
  start : Option σ → κ → σ
  /-- The nodes that START triggers. -/
  entry : List ν
  node : ν → η → σ → Option ρ → Outcome υ ι ε
  order : η → MergeOrder ν
  merge : σ → υ → σ
  /-- What the nodes of a completed super-step trigger, given the merged values. -/
  triggers : σ → List ν → List ν

inductive GraphError (ε : Type u) where
  | node (e : ε)
  | recursionLimit

/-- How a super-step ends. -/
inductive SuperStep (ν σ ι ε : Type u) where
  | raised (e : ε)
  | paused (checkpoint : Checkpoint ν σ ι)
  | advanced (checkpoint : Checkpoint ν σ ι)

namespace Pregel

variable {ν σ υ ι ρ ε κ η : Type u}

/-- The updates and interrupts of a super-step, unless a node raised. -/
def gather : List (Outcome υ ι ε) → Except ε (List υ × List ι)
  | [] => .ok ([], [])
  | .raise e :: _ => .error e
  | .update u :: rest => (gather rest).map fun (us, is) => (u :: us, is)
  | .interrupt i :: rest => (gather rest).map fun (us, is) => (us, i :: is)

variable (graph : Pregel ν σ υ ι ρ ε κ η) (env : η)

/-- How the pending nodes end, in the order in which they are merged. -/
def outcomes (checkpoint : Checkpoint ν σ ι) (resume : Option ρ) : List (Outcome υ ι ε) :=
  ((graph.order env).arrange checkpoint.next).map fun n => graph.node n env checkpoint.values resume

def superStep (checkpoint : Checkpoint ν σ ι) (resume : Option ρ) : SuperStep ν σ ι ε :=
  match gather (outcomes graph env checkpoint resume) with
  | .error e => .raised e
  | .ok (updates, []) =>
    let values := updates.foldl graph.merge checkpoint.values
    .advanced ⟨values, graph.triggers values checkpoint.next, []⟩
  | .ok (_, interrupts) => .paused { checkpoint with interrupts }

/-- Super-steps until nothing is pending, a node interrupts or raises, or `limit` steps are
    taken.  A resume value is offered to the first super-step only. -/
def run : (limit : Nat) → Option ρ → Checkpoint ν σ ι → Checkpoint ν σ ι × Except (GraphError ε) Unit
  | 0, _, checkpoint => (checkpoint, .error .recursionLimit)
  | limit + 1, resume, checkpoint =>
    if checkpoint.next.isEmpty then (checkpoint, .ok ())
    else
      match superStep graph env checkpoint resume with
      | .raised e => (checkpoint, .error (.node e))
      | .paused checkpoint' => (checkpoint', .ok ())
      | .advanced checkpoint' => run limit none checkpoint'

/-- `invoke(input)`: pending nodes of an existing checkpoint are dropped. -/
def invoke (limit : Nat) (thread : Option (Checkpoint ν σ ι)) (input : κ) :
    Checkpoint ν σ ι × Except (GraphError ε) Unit :=
  run graph env limit none ⟨graph.start (thread.map (·.values)) input, graph.entry, []⟩

/-- `invoke(Command(resume=value))`. -/
def resume (limit : Nat) (checkpoint : Checkpoint ν σ ι) (value : ρ) :
    Checkpoint ν σ ι × Except (GraphError ε) Unit :=
  run graph env limit (some value) checkpoint

/-- The checkpoints at which `run` takes a super-step. -/
def visited : (limit : Nat) → Option ρ → Checkpoint ν σ ι → List (Checkpoint ν σ ι)
  | 0, _, _ => []
  | limit + 1, resume, checkpoint =>
    if checkpoint.next.isEmpty then []
    else
      checkpoint ::
        match superStep graph env checkpoint resume with
        | .advanced checkpoint' => visited limit none checkpoint'
        | _ => []

/-! ## One super-step -/

variable {graph env} {limit : Nat} {value : Option ρ} {checkpoint checkpoint' : Checkpoint ν σ ι}

theorem gather_updates (updates : List υ) :
    gather (updates.map (.update : υ → Outcome υ ι ε)) = .ok (updates, []) := by
  induction updates with
  | nil => rfl
  | cons u rest ih => simp [gather, ih, Except.map]

theorem gather_raise {outcomes : List (Outcome υ ι ε)} {e : ε} (raised : .raise e ∈ outcomes) :
    ∃ e', gather outcomes = .error e' ∧ .raise e' ∈ outcomes := by
  induction outcomes with
  | nil => cases raised
  | cons first rest ih =>
    cases first with
    | raise e' => exact ⟨e', rfl, List.mem_cons_self⟩
    | update u =>
      obtain ⟨e', gathered, member⟩ := ih (by simpa using raised)
      exact ⟨e', by simp [gather, gathered, Except.map], List.mem_cons_of_mem _ member⟩
    | interrupt i =>
      obtain ⟨e', gathered, member⟩ := ih (by simpa using raised)
      exact ⟨e', by simp [gather, gathered, Except.map], List.mem_cons_of_mem _ member⟩

theorem update_mem_of_gather {outcomes : List (Outcome υ ι ε)} {updates : List υ}
    {interrupts : List ι} {u : υ} (gathered : gather outcomes = .ok (updates, interrupts))
    (member : u ∈ updates) : .update u ∈ outcomes := by
  induction outcomes generalizing updates interrupts with
  | nil =>
    cases gathered
    cases member
  | cons first rest ih =>
    cases first with
    | raise e => cases gathered
    | update u' =>
      cases later : gather rest with
      | error e => simp [gather, later, Except.map] at gathered
      | ok both =>
        simp only [gather, later, Except.map, Except.ok.injEq, Prod.mk.injEq] at gathered
        obtain ⟨rfl, -⟩ := gathered
        cases List.mem_cons.mp member with
        | inl first => exact first ▸ List.mem_cons_self
        | inr member => exact List.mem_cons_of_mem _ (ih later member)
    | interrupt i =>
      cases later : gather rest with
      | error e => simp [gather, later, Except.map] at gathered
      | ok both =>
        simp only [gather, later, Except.map, Except.ok.injEq, Prod.mk.injEq] at gathered
        obtain ⟨rfl, -⟩ := gathered
        exact List.mem_cons_of_mem _ (ih later member)

theorem mem_outcomes {outcome : Outcome υ ι ε} : outcome ∈ outcomes graph env checkpoint value ↔
    ∃ n ∈ checkpoint.next, graph.node n env checkpoint.values value = outcome := by
  simp only [outcomes, List.mem_map, MergeOrder.mem_arrange]

theorem superStep_updates (updates : List υ)
    (ended : outcomes graph env checkpoint value = updates.map .update) :
    superStep graph env checkpoint value =
      .advanced ⟨updates.foldl graph.merge checkpoint.values,
        graph.triggers (updates.foldl graph.merge checkpoint.values) checkpoint.next, []⟩ := by
  simp [superStep, ended, gather_updates]

/-- A node that is pending alone. -/
theorem superStep_update {n : ν} {u : υ} (alone : checkpoint.next = [n])
    (updated : graph.node n env checkpoint.values value = .update u) :
    superStep graph env checkpoint value =
      .advanced ⟨graph.merge checkpoint.values u,
        graph.triggers (graph.merge checkpoint.values u) [n], []⟩ := by
  rw [superStep_updates [u] (by simp [outcomes, alone, updated]), alone]
  rfl

variable (graph env value) in
/-- The exception that leaves a super-step is one of its nodes'. -/
theorem superStep_raise {n : ν} {e : ε} (pending : n ∈ checkpoint.next)
    (raised : graph.node n env checkpoint.values value = .raise e) :
    ∃ e', superStep graph env checkpoint value = .raised e' ∧
      ∃ n' ∈ checkpoint.next, graph.node n' env checkpoint.values value = .raise e' := by
  have member : .raise e ∈ outcomes graph env checkpoint value := mem_outcomes.mpr ⟨n, pending, raised⟩
  obtain ⟨e', gathered, member'⟩ := gather_raise member
  exact ⟨e', by simp [superStep, gathered], mem_outcomes.mp member'⟩

variable (graph env value) in
theorem superStep_interrupt {n : ν} {i : ι} (alone : checkpoint.next = [n])
    (interrupted : graph.node n env checkpoint.values value = .interrupt i) :
    superStep graph env checkpoint value = .paused { checkpoint with interrupts := [i] } := by
  simp [superStep, outcomes, alone, interrupted, gather, Except.map]

/-! ## One step of a run -/

theorem run_idle (idle : checkpoint.next = []) :
    run graph env (limit + 1) value checkpoint = (checkpoint, .ok ()) := by
  simp [run, idle]

theorem run_raised {e : ε} (pending : checkpoint.next ≠ [])
    (raised : superStep graph env checkpoint value = .raised e) :
    run graph env (limit + 1) value checkpoint = (checkpoint, .error (.node e)) := by
  simp [run, pending, raised]

theorem run_paused (pending : checkpoint.next ≠ [])
    (paused : superStep graph env checkpoint value = .paused checkpoint') :
    run graph env (limit + 1) value checkpoint = (checkpoint', .ok ()) := by
  simp [run, pending, paused]

theorem run_advanced (pending : checkpoint.next ≠ [])
    (advanced : superStep graph env checkpoint value = .advanced checkpoint') :
    run graph env (limit + 1) value checkpoint = run graph env limit none checkpoint' := by
  simp [run, pending, advanced]

variable (graph env) in
/-- What a super-step keeps when it pauses and when it advances, an invocation keeps. -/
theorem run_invariant {I : Checkpoint ν σ ι → Prop}
    (paused : ∀ {checkpoint interrupts}, I checkpoint → I { checkpoint with interrupts })
    (advanced : ∀ {checkpoint} {updates : List υ}, I checkpoint →
      (∀ u ∈ updates, ∃ n ∈ checkpoint.next, ∃ value,
        graph.node n env checkpoint.values value = .update u) →
      I ⟨updates.foldl graph.merge checkpoint.values,
        graph.triggers (updates.foldl graph.merge checkpoint.values) checkpoint.next, []⟩)
    (limit : Nat) (value : Option ρ) (checkpoint : Checkpoint ν σ ι) (holds : I checkpoint) :
    I (run graph env limit value checkpoint).1 := by
  -- the checkpoint may be resumed in the first step only, so the value is generalized
  induction limit generalizing value checkpoint with
  | zero => exact holds
  | succ limit ih =>
    simp only [run]
    split
    · exact holds
    · cases stepped : superStep graph env checkpoint value with
      | raised e => exact holds
      | paused checkpoint' =>
        simp only [superStep] at stepped
        split at stepped <;> cases stepped
        exact paused holds
      | advanced checkpoint' =>
        refine ih none checkpoint' ?_
        simp only [superStep] at stepped
        split at stepped <;> cases stepped
        next gathered =>
          refine advanced holds ?_
          intro u member
          obtain ⟨n, pending, updated⟩ := mem_outcomes.mp (update_mem_of_gather gathered member)
          exact ⟨n, pending, value, updated⟩

/-- What every update keeps, an invocation keeps. -/
theorem run_values {P : σ → Prop} (keep : ∀ {s u}, P s → P (graph.merge s u)) (limit : Nat)
    (value : Option ρ) (checkpoint : Checkpoint ν σ ι) (holds : P checkpoint.values) :
    P (run graph env limit value checkpoint).1.values :=
  run_invariant graph env (I := fun checkpoint => P checkpoint.values) id
    (fun holds _ => List.foldlRecOn _ _ holds fun _ kept _ _ => keep kept) limit value checkpoint holds

theorem visited_idle (idle : checkpoint.next = []) :
    visited graph env (limit + 1) value checkpoint = [] := by
  simp [visited, idle]

theorem visited_raised {e : ε} (pending : checkpoint.next ≠ [])
    (raised : superStep graph env checkpoint value = .raised e) :
    visited graph env (limit + 1) value checkpoint = [checkpoint] := by
  simp [visited, pending, raised]

theorem visited_paused (pending : checkpoint.next ≠ [])
    (paused : superStep graph env checkpoint value = .paused checkpoint') :
    visited graph env (limit + 1) value checkpoint = [checkpoint] := by
  simp [visited, pending, paused]

theorem visited_advanced (pending : checkpoint.next ≠ [])
    (advanced : superStep graph env checkpoint value = .advanced checkpoint') :
    visited graph env (limit + 1) value checkpoint =
      checkpoint :: visited graph env limit none checkpoint' := by
  simp [visited, pending, advanced]

end Pregel

end SupplierAssurance.Lib
