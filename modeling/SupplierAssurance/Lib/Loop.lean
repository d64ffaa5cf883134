import Mathlib.Init

/-! # While loops

`loop guard body fuel s` is the state in which `while guard: body` ends when it is
started in `s`, and `none` when the loop is still running after `fuel` iterations.  A
loop terminates when some fuel is enough.

* `loop_of_variant` — the rule of total correctness: an invariant and a measure that
  each iteration lowers.
* `loop_never` — the rule of divergence: an invariant under which the guard stays true.
-/

namespace SupplierAssurance.Lib

universe u

variable {σ : Type u}

/-- `while guard: body`, for at most `fuel` iterations. -/
def loop (guard : σ → Bool) (body : σ → σ) : Nat → σ → Option σ
  | 0, s => if guard s then none else some s
  | fuel + 1, s => if guard s then loop guard body fuel (body s) else some s

variable {guard : σ → Bool} {body : σ → σ} {s t : σ} {fuel more : Nat}

theorem loop_done (done : guard s = false) : loop guard body fuel s = some s := by
  cases fuel <;> simp [loop, done]

theorem loop_next (enter : guard s = true) :
    loop guard body (fuel + 1) s = loop guard body fuel (body s) := by
  simp [loop, enter]

/-- A loop that has ended ends in the same state with more fuel. -/
theorem loop_mono (ended : loop guard body fuel s = some t) (le : fuel ≤ more) :
    loop guard body more s = some t := by
  induction fuel generalizing s more with
  | zero =>
    cases enter : guard s with
    | true => simp [loop, enter] at ended
    | false =>
      simp only [loop, enter, Bool.false_eq_true, if_false] at ended
      rw [loop_done enter, ended]
  | succ fuel ih =>
    obtain ⟨more, rfl⟩ : ∃ rest, more = rest + 1 := ⟨more - 1, by omega⟩
    cases enter : guard s with
    | true =>
      rw [loop_next enter] at ended ⊢
      exact ih ended (by omega)
    | false =>
      rw [loop_done enter] at ended ⊢
      exact ended

/-- Total correctness: the loop ends, within `measure s` iterations, in a state of the
    invariant in which the guard is false. -/
theorem loop_of_variant {I : σ → Prop} (measure : σ → Nat)
    (keep : ∀ s, I s → guard s = true → I (body s) ∧ measure (body s) < measure s)
    (base : I s) :
    ∃ t, loop guard body (measure s) s = some t ∧ I t ∧ guard t = false := by
  induction size : measure s using Nat.strongRecOn generalizing s with
  | ind bound ih =>
    cases enter : guard s with
    | false => exact ⟨s, loop_done enter, base, enter⟩
    | true =>
      obtain ⟨kept, lower⟩ := keep s base enter
      obtain ⟨t, ended, holds, left⟩ := ih (measure (body s)) (by omega) kept rfl
      refine ⟨t, ?_, holds, left⟩
      obtain ⟨fuel, rfl⟩ : ∃ fuel, bound = fuel + 1 := ⟨bound - 1, by omega⟩
      rw [loop_next enter]
      exact loop_mono ended (by omega)

/-- Divergence: from a state of an invariant under which the guard is always true, no
    number of iterations is enough. -/
theorem loop_never {I : σ → Prop} (keep : ∀ s, I s → guard s = true ∧ I (body s)) (base : I s) :
    loop guard body fuel s = none := by
  induction fuel generalizing s with
  | zero => simp [loop, (keep s base).1]
  | succ fuel ih =>
    rw [loop_next (keep s base).1]
    exact ih (keep s base).2

end SupplierAssurance.Lib
