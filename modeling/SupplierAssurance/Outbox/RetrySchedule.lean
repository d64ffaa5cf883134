import SupplierAssurance.Outbox.Steps

/-! # The retry schedule

`dispatch_once` computes the delay of a retry from the `attempt_count` it read when it
claimed the message, with the exponent cut off at 20.  The counter itself lives in the row.

While a row is locked by a worker, only that worker's acknowledgement writes its counter, so
the copy in the worker's hands is current whenever the acknowledgement is effective.  The
bounds on the attempts do not matter here and may differ from worker to worker.
-/

namespace SupplierAssurance.Outbox

open Python Lib Governance SqlAlchemyOutboxRepository

/-! ## Delays -/

def second : Timedelta := 1000000

/-- `min(retry_base * 2^(k-1), retry_max)` seconds, the delay after the `k`-th failure. -/
def scheduledDelay (retryBase retryMax k : Nat) : Timedelta :=
  (min (retryBase * 2 ^ (k - 1)) retryMax : Nat) * second

theorem scheduledDelay_mono {retryBase retryMax j k : Nat} (le : j ≤ k) :
    scheduledDelay retryBase retryMax j ≤ scheduledDelay retryBase retryMax k := by
  have power : 2 ^ (j - 1) ≤ 2 ^ (k - 1) := Nat.pow_le_pow_right (by decide) (by omega)
  have scaled : retryBase * 2 ^ (j - 1) ≤ retryBase * 2 ^ (k - 1) := Nat.mul_le_mul_left _ power
  have capped : min (retryBase * 2 ^ (j - 1)) retryMax ≤ min (retryBase * 2 ^ (k - 1)) retryMax := by
    omega
  exact Int.mul_le_mul_of_nonneg_right (Int.ofNat_le.mpr capped) (by decide)

theorem scheduledDelay_le (retryBase retryMax k : Nat) :
    scheduledDelay retryBase retryMax k ≤ retryMax * second :=
  Int.mul_le_mul_of_nonneg_right (Int.ofNat_le.mpr (Nat.min_le_right _ _)) (by decide)

/-- With a base of a second or more, 2^20 exceeds every maximum that the settings admit. -/
theorem clamp_harmless {retryBase retryMax : Nat} (positive : 1 ≤ retryBase) (day : retryMax ≤ 86400)
    (n : Nat) : min (retryBase * 2 ^ min n 20) retryMax = min (retryBase * 2 ^ n) retryMax := by
  by_cases small : n ≤ 20
  · rw [Nat.min_eq_left small]
  · have clamped : 2 ^ 20 ≤ retryBase * 2 ^ min n 20 := by
      rw [Nat.min_eq_right (by omega)]
      exact Nat.le_mul_of_pos_left _ positive
    have unclamped : 2 ^ 20 ≤ retryBase * 2 ^ n :=
      (Nat.pow_le_pow_right (by decide) (by omega)).trans (Nat.le_mul_of_pos_left _ positive)
    omega

theorem retryDelay_eq {config : DispatcherConfig} {retryBase retryMax : Nat}
    (base : config.retryBase = retryBase * second) (max : config.retryMax = retryMax * second)
    (positive : 1 ≤ retryBase) (day : retryMax ≤ 86400) (attemptCount : Nat) :
    retryDelay config attemptCount = scheduledDelay retryBase retryMax (attemptCount + 1) := by
  have scale : ∀ seconds cap : Nat, min ((seconds : Timedelta) * second) (cap * second) =
      (min seconds cap : Nat) * second := by
    intro seconds cap
    show min ((seconds : Int) * 1000000) ((cap : Int) * 1000000) = ((min seconds cap : Nat) : Int) * 1000000
    omega
  have delay : retryDelay config attemptCount =
      (min (retryBase * 2 ^ min attemptCount 20) retryMax : Nat) * second := by
    rw [← scale, retryDelay, base, max]
    push_cast
    rw [Int.mul_right_comm]
  rw [delay, clamp_harmless positive day, scheduledDelay, Nat.add_sub_cancel]

/-! ## The claim time -/

/-- The `current_time` of the dispatch in progress. -/
def Worker.claimTime : Worker → Option Datetime
  | .idle _ => none
  | .loading _ batch | .starting _ _ batch | .acknowledging _ _ batch => some batch.now

theorem Worker.claimTime_next {batch : Batch} {t : Datetime}
    (running : (Worker.next batch).claimTime = some t) : t = batch.now := by
  unfold Worker.next at running
  split at running
  · cases running
  · exact (Option.some.inj running).symm

theorem Worker.claimTime_load (db : Store) (message : OutboxMessage) (batch : Batch) :
    (Worker.load db message batch).claimTime = some batch.now := by
  unfold Worker.load
  split <;> rfl

theorem Worker.claimTime_started (message : OutboxMessage) (batch : Batch)
    (answer : Except String String) :
    (Worker.started message batch answer).claimTime = some batch.now := by
  cases answer <;> rfl

theorem Worker.claimTime_acknowledge {workerId : String} {config : DispatcherConfig} {db db' : Store}
    {message : OutboxMessage} {delivery : Except String (List (String × String))} {batch : Batch}
    {worker : Worker} {t : Datetime}
    (done : Worker.acknowledge workerId config db message delivery batch = (db', worker))
    (running : worker.claimTime = some t) : t = batch.now := by
  cases delivery with
  | ok result =>
    simp only [Worker.acknowledge] at done
    split at done <;> cases done
    · cases running
    · exact (Worker.claimTime_next running :)
  | error errorType =>
    simp only [Worker.acknowledge] at done
    split at done <;> cases done
    · cases running
    · exact (Worker.claimTime_next running :)
    · exact (Worker.claimTime_next running :)

/-! ## Snapshots -/

/-- The copies in the hands of the workers show the counters of the rows they still lock. -/
def Snapshots (workers : String → Worker) (rows : List OutboxMessage) : Prop :=
  ∀ workerId, ∀ m ∈ (workers workerId).hands, ∀ record ∈ rows, record.id = m.id →
    record.lockedBy = some workerId → record.attemptCount = m.attemptCount

end SupplierAssurance.Outbox

namespace SupplierAssurance.Sample.Retry

open Python Governance Outbox

/-! ## A workflow that fails on demand -/

def workflow : Workflows.ApprovalWorkflow Unit (Option String) where
  start _ failure action :=
    match failure with
    | none => Workflows.localApprovalWorkflow.start () () action
    | some typeName => ((), .error typeName)

theorem workflow_fits (service : Unit) (failure : Option String) (action : GovernedAction)
    (reference : String) (started : (workflow.start service failure action).2 = .ok reference) :
    Varchar 2048 reference := by
  cases failure with
  | none => exact Workflows.localApprovalWorkflow_fits () () action reference started
  | some typeName => cases started

def platform : Platform (List (UUID × ExecutionReceipt)) Datetime Unit (Option String) where
  supplier := inMemorySupplierSystem
  workflow := workflow
  config _ := { config with maxAttempts := 8 }
  references_fit := workflow_fits

/-- The proposal of an action. -/
def propose : List (Label Datetime (Option String)) :=
  [.submit (.propose proposalA) 1, .advance 0 (ambient 2 0) 0, .advance 0 (ambient 3 1) 0]

/-- One poll that finds one message, up to its acknowledgement. -/
def deliver (workerId : String) (now : Datetime) (failure : Option String) :
    List (Label Datetime (Option String)) :=
  [.claim workerId now ⟨[], fun _ => 0⟩, .load workerId, .start workerId failure]

end SupplierAssurance.Sample.Retry

namespace SupplierAssurance.World

open Python Lib Governance Outbox SqlAlchemyOutboxRepository

variable {σ ε ω φ : Type} {platform : Platform σ ε ω φ} {w w' : World σ ω} {label : Label ε φ}

/-! ## Runs -/

/-- Counters and copies, whatever the bounds on the attempts are. -/
structure Retrying (w : World σ ω) : Prop where
  counted : ∀ m ∈ w.store.outbox.rows, m.attemptCount = failures w.leases m.id
  known : ∀ e ∈ w.leases, ∃ m ∈ w.store.outbox.rows, m.id = e.messageId
  snapshots : Snapshots w.workers w.store.outbox.rows

theorem failures_elsewhere {new : List LeaseEvent} {id : UUID}
    (elsewhere : ∀ e ∈ new, e.messageId ≠ id) : failures new id = 0 := by
  rw [failures, List.countP_eq_zero]
  intro e member
  have other := elsewhere e member
  cases e <;> simp_all [LeaseEvent.isFailureOf, LeaseEvent.messageId]

/-- The counter of a row follows the log. -/
theorem RowMoves.counted {new : List LeaseEvent} {r r' : OutboxMessage}
    (moves : RowMoves w label new r r') (counted : r.attemptCount = failures w.leases r.id) :
    r'.attemptCount = failures (w.leases ++ new) r.id := by
  rw [failures_append, ← counted]
  cases moves with
  | kept elsewhere => rw [failures_elsewhere elsewhere, Nat.add_zero]
  | leased _ events =>
    rw [events, failures_claims]
    rfl
  | published _ _ _ _ event =>
    rw [event, failures_published]
    rfl
  | failed _ _ _ _ event => rw [event, failures_failed, assignFailure_attemptCount]

/-- A row that is locked after a step was locked before by the same worker, or the step is
    that worker's claim; the counter is as before. -/
theorem RowMoves.locked {new : List LeaseEvent} {r r' : OutboxMessage} {workerId : String}
    (moves : RowMoves w label new r r') (owned : r'.lockedBy = some workerId) :
    r'.attemptCount = r.attemptCount ∧
      (r.lockedBy = some workerId ∨ ∃ now scan, label = .claim workerId now scan) := by
  cases moves with
  | kept => exact ⟨rfl, .inl owned⟩
  | leased isClaim =>
    cases owned
    exact ⟨rfl, .inr ⟨_, _, isClaim⟩⟩
  | published => cases owned
  | failed =>
    rw [(assignFailure_unlocked _ _ _ _ r).2] at owned
    cases owned

theorem snapshots_step {new : List LeaseEvent} (snapshots : Snapshots w.workers w.store.outbox.rows)
    (moved : step platform w label = some w') (logged : Logged w w' label new) :
    Snapshots w'.workers w'.store.outbox.rows := by
  intro workerId m held r' member same owned
  rcases logged.comes r' member with ⟨r, old, sameId, moves⟩ | inserted
  · obtain ⟨count, locked⟩ := moves.locked owned
    rw [count]
    rcases (worker_moves moved workerId).hands with fewer | ⟨now, scan, chosen, _, inRows, log, hands⟩
    · rcases locked with stillOwned | ⟨now, scan, rfl⟩
      · exact snapshots workerId m (fewer held) r old (sameId.symm.trans same) stillOwned
      · cases step_moves moved with
        | claim idle =>
          have nothing := fewer held
          rw [idle] at nothing
          cases nothing
    · rw [hands] at held
      obtain ⟨n, nChosen, rfl⟩ := List.mem_map.mp held
      rw [Table.eq_of_pk old (inRows n nChosen) (sameId.symm.trans same)]
      rfl
  · rw [inserted.unlocked] at owned
    cases owned

theorem retrying_step (retrying : w.Retrying) (moved : step platform w label = some w') :
    w'.Retrying := by
  obtain ⟨new, logged⟩ := logged_step moved
  have known : ∀ e ∈ w'.leases, ∃ r ∈ w.store.outbox.rows, r.id = e.messageId := by
    intro e member
    rw [logged.log] at member
    rcases List.mem_append.mp member with old | added
    · exact retrying.known e old
    · exact logged.about e added
  refine ⟨?_, ?_, snapshots_step retrying.snapshots moved logged⟩
  · intro r' member
    rcases logged.comes r' member with ⟨r, old, sameId, moves⟩ | inserted
    · rw [logged.log, sameId]
      exact moves.counted (retrying.counted r old)
    · rw [inserted.uncounted, failures_elsewhere]
      intro e eMember same
      obtain ⟨r, old, about⟩ := known e eMember
      exact inserted.fresh r old (about.trans same)
  · intro e member
    obtain ⟨r, old, about⟩ := known e member
    obtain ⟨r', member', sameId, _⟩ := logged.moves r old
    exact ⟨r', member', sameId.trans about⟩

theorem retrying_inductive : Inductive platform (Retrying : World σ ω → Prop) where
  initial _ _ _ _ := by
    refine ⟨?_, ?_, ?_⟩ <;> simp [World.initial, Store.empty, Worker.hands, Snapshots]
  keep := retrying_step

/-! ## Dispatches -/

/-- The latest claim of `workerId` was made at `t`. -/
def DispatchedAt (platform : Platform σ ε ω φ) (w : World σ ω) (workerId : String) (t : Datetime) :
    Prop :=
  ∃ before claimed scan, Reachable platform before ∧
    step platform before (.claim workerId t scan) = some claimed ∧
    StepsWhen (step platform) (fun _ label => ∀ now scan, label ≠ .claim workerId now scan) claimed w

/-- Between two claims a worker keeps the time of the first. -/
theorem claimTime_step {workerId : String} {t : Datetime}
    (other : ∀ now scan, label ≠ .claim workerId now scan) (moved : step platform w label = some w')
    (running : (w'.workers workerId).claimTime = some t) :
    (w.workers workerId).claimTime = some t := by
  have moves := worker_moves moved workerId
  generalize w'.workers workerId = worker at moves running
  cases moves with
  | kept => exact running
  | @claimed now scan => exact absurd rfl (other now scan)
  | loaded loading =>
    rw [Worker.claimTime_load] at running
    rw [loading]
    exact running
  | started starting =>
    rw [Worker.claimTime_started] at running
    rw [starting]
    exact running
  | acknowledged acknowledging done =>
    rw [acknowledging, Worker.claimTime_acknowledge done running]
    rfl
  | crashed => cases running

theorem DispatchedAt.claimTime {workerId : String} {t s : Datetime}
    (dispatched : DispatchedAt platform w workerId t)
    (running : (w.workers workerId).claimTime = some s) : s = t := by
  obtain ⟨before, claimed, scan, _, claim, steps⟩ := dispatched
  have always : ∀ s, (w.workers workerId).claimTime = some s → s = t := by
    refine steps.invariant (I := fun u => ∀ s, (u.workers workerId).claimTime = some s → s = t) ?_ ?_
    · intro s running
      cases step_moves claim with
      | claim =>
        rw [show (setWorker before workerId _).workers workerId = _ from Function.update_self ..]
          at running
        exact (Worker.claimTime_next running :)
    · intro _ _ _ holds other moved s running
      exact holds s (claimTime_step other moved running)
  exact always s running

theorem exists_dispatchedAt (reachable : Reachable platform w) (workerId : String)
    (running : (w.workers workerId).claimTime.isSome) : ∃ t, DispatchedAt platform w workerId t := by
  obtain ⟨caseIds, reviewIds, supplier, workflow, steps⟩ := reachable
  induction steps with
  | refl => cases running
  | @tail w w' label steps _ moved ih =>
    have before : Reachable platform w := ⟨_, _, _, _, steps⟩
    by_cases claims : ∃ now scan, label = .claim workerId now scan
    · obtain ⟨now, scan, rfl⟩ := claims
      exact ⟨now, w, w', scan, before, moved, .refl⟩
    · have other : ∀ now scan, label ≠ .claim workerId now scan :=
        fun now scan same => claims ⟨now, scan, same⟩
      obtain ⟨t, running⟩ := Option.isSome_iff_exists.mp running
      have ran : (w.workers workerId).claimTime.isSome := by
        rw [claimTime_step other moved running]
        rfl
      obtain ⟨t, start, claimed, scan, reachable, claim, since⟩ := ih ran
      exact ⟨t, start, claimed, scan, reachable, claim, .tail since other moved⟩

/-! ## The schedule -/

/-- All workers share `retry_base` and `retry_max`, whole seconds within the bounds of
    `Settings`. -/
structure RetrySettings (platform : Platform σ ε ω φ) (retryBase retryMax : Nat) : Prop where
  baseBounds : 1 ≤ retryBase ∧ retryBase ≤ 3600
  maxBounds : 1 ≤ retryMax ∧ retryMax ≤ 86400
  base : ∀ workerId, (platform.config workerId).retryBase = retryBase * second
  max : ∀ workerId, (platform.config workerId).retryMax = retryMax * second

structure RetriesOnSchedule (platform : Platform σ ε ω φ) (retryBase retryMax : Nat) : Prop where
  /-- A failure that is effective and does not exhaust the attempts belongs to a dispatch, and
      moves `available_at` by the scheduled delay from the claim time of that dispatch. -/
  scheduled : ∀ (w w' : World σ ω) workerId id, Reachable platform w →
    step platform w (.acknowledge workerId) = some w' →
    w'.leases = w.leases ++ [.failed workerId id] →
    failures w'.leases id < (platform.config workerId).maxAttempts →
    1 ≤ failures w'.leases id ∧ (∃ t, DispatchedAt platform w workerId t) ∧
      ∀ t, DispatchedAt platform w workerId t →
        ∃ record, w'.store.outbox.find? id = some record ∧
          record.availableAt = t + scheduledDelay retryBase retryMax (failures w'.leases id)
  monotone : ∀ j k, j ≤ k →
    scheduledDelay retryBase retryMax j ≤ scheduledDelay retryBase retryMax k
  bounded : ∀ k, scheduledDelay retryBase retryMax k ≤ retryMax * second
  /-- No claim returns the message before that time. -/
  notEarly : ∀ (w : World σ ω), Reachable platform w → ∀ m ∈ w.store.outbox.rows,
    ∀ workerId batchSize lockTimeout now scan, now < m.availableAt →
    ∀ claimed ∈ (claimBatch w.store workerId batchSize lockTimeout now scan).2, claimed.id ≠ m.id

/-- The effective failure, with the counter that the worker has read. -/
theorem failure_recorded (retrying : w.Retrying) {workerId : String} {id : UUID}
    (moved : step platform w (.acknowledge workerId) = some w')
    (failed : w'.leases = w.leases ++ [.failed workerId id])
    (notLast : failures w'.leases id < (platform.config workerId).maxAttempts) :
    ∃ t n record, (w.workers workerId).claimTime = some t ∧ failures w'.leases id = n + 1 ∧
      w'.store.outbox.find? id = some record ∧
      record.availableAt = t + retryDelay (platform.config workerId) n := by
  have counts : failures w'.leases id = failures w.leases id + 1 := by
    rw [failed, failures_append, failures_failed]
  cases step_moves moved with
  | @acknowledge _ message batch delivery db' worker acknowledging _ acknowledged =>
    have event : ackEvents w.store db' workerId message.id delivery = [.failed workerId id] :=
      List.append_cancel_left failed
    cases acknowledged with
    | unchanged =>
      rw [ackEvents_unchanged] at event
      cases event
    | published returned found same unpublished =>
      subst returned
      rw [ackEvents_published (Table.find?_eq_some.mpr ⟨found, same⟩) unpublished] at event
      cases event
    | @failed record errorType returned found same owned =>
      subst returned
      have lookup := Table.find?_eq_some.mpr ⟨found, same⟩
      rw [ackEvents_failed lookup] at event
      cases event
      -- the lease has kept the counter at what the claim has read
      have current : record.attemptCount = message.attemptCount := by
        refine retrying.snapshots workerId message ?_ record found same owned
        rw [acknowledging]
        exact List.mem_cons_self
      have counter : message.attemptCount = failures w.leases message.id := by
        rw [← current, retrying.counted record found, same]
      refine ⟨batch.now, message.attemptCount, _, ?_, ?_, find?_fail lookup, ?_⟩
      · rw [acknowledging]
        rfl
      · rw [counts, counter]
      · have goesOn : ¬ record.attemptCount + 1 ≥ (platform.config workerId).maxAttempts := by
          rw [current, counter]
          omega
        simp only [assignFailure, if_neg goesOn]

theorem retries_on_schedule {retryBase retryMax : Nat}
    (settings : RetrySettings platform retryBase retryMax) :
    RetriesOnSchedule platform retryBase retryMax := by
  refine ⟨?_, ?_, scheduledDelay_le retryBase retryMax, ?_⟩
  · intro w w' workerId id reachable moved failed notLast
    have retrying : w.Retrying := reachable.invariant retrying_inductive
    obtain ⟨t, n, record, running, count, found, available⟩ :=
      failure_recorded retrying moved failed notLast
    have dispatched : ∃ t, DispatchedAt platform w workerId t := by
      apply exists_dispatchedAt reachable workerId
      rw [running]
      rfl
    refine ⟨by omega, dispatched, ?_⟩
    intro s dispatchedAt
    -- the retry counts from the claim of the batch
    have same : t = s := dispatchedAt.claimTime running
    have delay := retryDelay_eq (settings.base workerId) (settings.max workerId) settings.baseBounds.1
      settings.maxBounds.2 n
    exact ⟨record, found, by rw [available, delay, same, count]⟩
  · intro j k le
    exact scheduledDelay_mono le
  · intro w _ m member workerId batchSize lockTimeout now scan early claimed returned same
    obtain ⟨n, selected, rfl⟩ := List.mem_map.mp returned
    obtain ⟨nMember, eligible⟩ := mem_selectBatch selected
    have isMessage : n = m := Table.eq_of_pk nMember member same
    subst isMessage
    simp only [claimable, Bool.and_eq_true, decide_eq_true_eq] at eligible
    exact absurd eligible.1.2 (not_le.mpr early)

/-- The second failure of a message, recorded by another worker than the first. -/
theorem retries_on_schedule_second_failure :
    RetriesOnSchedule Sample.Retry.platform 2 300 ∧ ∃ w w', Reachable Sample.Retry.platform w ∧
      step Sample.Retry.platform w (.acknowledge "second") = some w' ∧
      w'.leases = w.leases ++ [.failed "second" ⟨3⟩] ∧ failures w'.leases ⟨3⟩ = 2 := by
  have settings : RetrySettings Sample.Retry.platform 2 300 :=
    ⟨by decide, by decide, fun _ => rfl, fun _ => rfl⟩
  have replayed : ((run (step Sample.Retry.platform)
      (initial [⟨0xa⟩, ⟨0xb⟩] [⟨0x1a⟩, ⟨0x1b⟩] [] ())
      (Sample.Retry.propose ++ Sample.Retry.deliver "first" 10 (some "TimeoutError") ++
        [.acknowledge "first"] ++ Sample.Retry.deliver "second" 2000010 (some "TimeoutError"))).map
      fun w => (step Sample.Retry.platform w (.acknowledge "second")).any fun w' =>
        w'.leases = w.leases ++ [.failed "second" ⟨3⟩] ∧ failures w'.leases ⟨3⟩ = 2) = some true := by
    decide +kernel
  obtain ⟨w, reachable, acknowledged⟩ := reachable_of_run replayed
  obtain ⟨w', moved, failed⟩ := (Option.any_eq_true _ _).mp acknowledged
  exact ⟨retries_on_schedule settings, w, w', reachable, moved, of_decide_eq_true failed⟩

end SupplierAssurance.World
