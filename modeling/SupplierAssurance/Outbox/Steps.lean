import SupplierAssurance.Outbox.Lease

/-! # What a step does to one worker and to one message

The tables change in a few ways only.  `worker_moves` and `logged_step` say once what a step
can do to a given worker, to a given row of the outbox, and to the log of leases; what a whole
run keeps is then proved by cases on these two, without the steps themselves.
-/

namespace SupplierAssurance.World

open Python Lib Governance Outbox SqlAlchemyOutboxRepository

variable {σ ε ω φ : Type} {platform : Platform σ ε ω φ} {w w' : World σ ω} {label : Label ε φ}

/-! ## Workers -/

/-- The worker that takes the step. -/
def mover : Label ε φ → Option String
  | .claim workerId _ _ | .load workerId | .start workerId _ | .acknowledge workerId
  | .crash workerId => some workerId
  | .submit _ _ | .advance _ _ _ | .storeCase _ | .storeReview _ => none

/-- What a step with this label does to the worker `workerId`. -/
inductive WorkerMoves (platform : Platform σ ε ω φ) (w w' : World σ ω) (workerId : String) :
    Label ε φ → Worker → Prop
  | kept {label : Label ε φ} : mover label ≠ some workerId →
      WorkerMoves platform w w' workerId label (w.workers workerId)
  | claimed {now : Datetime} {scan : Scan} {last : Option (Except OutboxError OutboxDispatchResult)}
      {chosen : List OutboxMessage} {result : OutboxDispatchResult} :
      w.workers workerId = .idle last →
      chosen = selectBatch w.store (platform.config workerId).batchSize
        (platform.config workerId).lockTimeout now scan →
      w'.leases = w.leases ++ chosen.map (fun m => .claimed workerId m.id) →
      WorkerMoves platform w w' workerId (.claim workerId now scan)
        (.next ⟨now, chosen.map (lease workerId now), result⟩)
  | loaded {message : OutboxMessage} {batch : Batch} :
      w.workers workerId = .loading message batch →
      WorkerMoves platform w w' workerId (.load workerId) (.load w.store message batch)
  | started {input : φ} {message : OutboxMessage} {action : GovernedAction} {batch : Batch}
      {answer : Except String String} :
      w.workers workerId = .starting message action batch →
      WorkerMoves platform w w' workerId (.start workerId input) (.started message batch answer)
  | acknowledged {message : OutboxMessage} {batch : Batch}
      {delivery : Except String (List (String × String))} {worker : Worker} :
      w.workers workerId = .acknowledging message delivery batch →
      Worker.acknowledge workerId (platform.config workerId) w.store message delivery batch =
        (w'.store, worker) →
      WorkerMoves platform w w' workerId (.acknowledge workerId) worker
  | crashed : WorkerMoves platform w w' workerId (.crash workerId) (.idle none)

theorem worker_moves (moved : step platform w label = some w') (workerId : String) :
    WorkerMoves platform w w' workerId label (w'.workers workerId) := by
  have one : ∀ {moving : String} {worker : Worker},
      w'.workers = Function.update w.workers moving worker → mover label = some moving →
      (moving = workerId → WorkerMoves platform w w' workerId label worker) →
      WorkerMoves platform w w' workerId label (w'.workers workerId) := by
    intro moving worker updated isMover here
    rw [updated]
    by_cases same : moving = workerId
    · subst same
      rw [Function.update_self]
      exact here rfl
    · rw [Function.update_of_ne (Ne.symm same)]
      refine .kept ?_
      rw [isMover]
      exact fun again => same (Option.some.inj again)
  cases step_moves moved with
  | submit | advance | storeCase | storeReview => exact .kept nofun
  | claim idle selected =>
    refine one rfl rfl ?_
    rintro rfl
    exact .claimed idle selected rfl
  | load loading =>
    refine one rfl rfl ?_
    rintro rfl
    exact .loaded loading
  | start starting =>
    refine one rfl rfl ?_
    rintro rfl
    exact .started starting
  | acknowledge acknowledging done =>
    refine one rfl rfl ?_
    rintro rfl
    exact .acknowledged acknowledging done
  | crash =>
    refine one rfl rfl ?_
    rintro rfl
    exact .crashed

/-- A worker goes on with what it has in its hands or less, unless it claims a batch. -/
theorem WorkerMoves.hands {workerId : String} {worker : Worker}
    (moves : WorkerMoves platform w w' workerId label worker) :
    worker.hands ⊆ (w.workers workerId).hands ∨
      ∃ now scan, ∃ chosen : List OutboxMessage, label = .claim workerId now scan ∧
        (∀ m ∈ chosen, m ∈ w.store.outbox.rows) ∧
        w'.leases = w.leases ++ chosen.map (fun m => .claimed workerId m.id) ∧
        worker.hands = chosen.map (lease workerId now) := by
  cases moves with
  | kept => exact .inl (List.Subset.refl _)
  | @claimed now scan _ chosen _ _ selected log =>
    refine .inr ⟨now, scan, chosen, rfl, ?_, log, Worker.hands_next _⟩
    intro m member
    rw [selected] at member
    exact (mem_selectBatch member).1
  -- a claim fills the hands, and an acknowledgement takes one message out
  | loaded loading =>
    left
    rw [Worker.hands_load, loading]
    exact List.Subset.refl _
  | started starting =>
    left
    rw [Worker.hands_started, starting]
    exact List.Subset.refl _
  | acknowledged acknowledging done =>
    left
    rw [acknowledging]
    exact List.Subset.trans (Worker.hands_acknowledge done) (List.subset_cons_self _ _)
  | crashed => exact .inl (List.nil_subset _)

/-! ## Messages -/

/-- What a step that logs the events `new` does to the row `r`. -/
inductive RowMoves (w : World σ ω) (label : Label ε φ) (new : List LeaseEvent) (r : OutboxMessage) :
    OutboxMessage → Prop
  | kept : (∀ e ∈ new, e.messageId ≠ r.id) → RowMoves w label new r r
  | leased {workerId : String} {now : Datetime} {scan : Scan} {ids : List UUID} :
      label = .claim workerId now scan → new = ids.map (.claimed workerId) → r.id ∈ ids →
      RowMoves w label new r (lease workerId now r)
  | published {workerId : String} {message : OutboxMessage} {batch : Batch}
      {delivery : Except String (List (String × String))} {result : List (String × String)}
      {now : Datetime} :
      label = .acknowledge workerId → w.workers workerId = .acknowledging message delivery batch →
      message.id = r.id → r.lockedBy = some workerId → new = [.published workerId r.id] →
      RowMoves w label new r (assignPublished result now r)
  | failed {workerId : String} {message : OutboxMessage} {batch : Batch}
      {delivery : Except String (List (String × String))} {errorType : String}
      {retryAt now : Datetime} {maxAttempts : Nat} :
      label = .acknowledge workerId → w.workers workerId = .acknowledging message delivery batch →
      message.id = r.id → r.lockedBy = some workerId → new = [.failed workerId r.id] →
      RowMoves w label new r (assignFailure errorType retryAt maxAttempts now r)

/-- A row that a committed proposal has just inserted. -/
structure Inserted (rows : List OutboxMessage) (r : OutboxMessage) : Prop where
  unlocked : r.lockedBy = none
  uncounted : r.attemptCount = 0
  fresh : ∀ old ∈ rows, old.id ≠ r.id

/-- A step that logs `new`: every old row moves, every row has moved or is inserted, and the
    events are about rows of the table. -/
structure Logged (w w' : World σ ω) (label : Label ε φ) (new : List LeaseEvent) : Prop where
  log : w'.leases = w.leases ++ new
  about : ∀ e ∈ new, ∃ r ∈ w.store.outbox.rows, r.id = e.messageId
  moves : ∀ r ∈ w.store.outbox.rows, ∃ r' ∈ w'.store.outbox.rows, r'.id = r.id ∧
    RowMoves w label new r r'
  comes : ∀ r' ∈ w'.store.outbox.rows, (∃ r ∈ w.store.outbox.rows, r'.id = r.id ∧
    RowMoves w label new r r') ∨ Inserted w.store.outbox.rows r'

/-- A step that updates each row on its own. -/
theorem Logged.of_map {new : List LeaseEvent} {f : OutboxMessage → OutboxMessage}
    (log : w'.leases = w.leases ++ new)
    (about : ∀ e ∈ new, ∃ r ∈ w.store.outbox.rows, r.id = e.messageId)
    (rows : w'.store.outbox.rows = w.store.outbox.rows.map f)
    (moves : ∀ r ∈ w.store.outbox.rows, (f r).id = r.id ∧ RowMoves w label new r (f r)) :
    Logged w w' label new := by
  refine ⟨log, about, ?_, ?_⟩
  · intro r member
    exact ⟨f r, rows ▸ List.mem_map_of_mem member, moves r member⟩
  · intro r' member
    rw [rows] at member
    obtain ⟨r, old, rfl⟩ := List.mem_map.mp member
    exact .inl ⟨r, old, moves r old⟩

/-- A step that logs one event, about the one row that it updates. -/
theorem Logged.of_one {event : LeaseEvent} {id : UUID} {f : OutboxMessage → OutboxMessage}
    (log : w'.leases = w.leases ++ [event]) (about : event.messageId = id)
    (stored : ∃ r ∈ w.store.outbox.rows, r.id = id)
    (rows : w'.store.outbox.rows = w.store.outbox.rows.map fun r => if r.id = id then f r else r)
    (moves : ∀ r ∈ w.store.outbox.rows, r.id = id →
      (f r).id = r.id ∧ RowMoves w label [event] r (f r)) :
    Logged w w' label [event] := by
  refine .of_map log ?_ rows ?_
  · intro e member
    rw [List.mem_singleton.mp member, about]
    exact stored
  · intro r member
    by_cases here : r.id = id
    · rw [if_pos here]
      exact moves r member here
    · rw [if_neg here]
      refine ⟨rfl, .kept ?_⟩
      intro e eMember same
      rw [List.mem_singleton.mp eMember, about] at same
      exact here same.symm

/-- A step that logs nothing and leaves the table alone. -/
theorem Logged.of_same (log : w'.leases = w.leases)
    (rows : w'.store.outbox.rows = w.store.outbox.rows) : Logged w w' label [] := by
  refine Logged.of_map (f := id) (by simp [log]) (by simp) (by simp [rows]) ?_
  intro r _
  exact ⟨rfl, .kept (by simp)⟩

theorem logged_advance {index : Nat} {request : Request} {p : Progress σ}
    (messages : AdvancedMessages w.store p.store) :
    Logged w (w.progressed index request p) label [] := by
  cases messages with
  | same rows => exact .of_same rfl rows
  | inserted rows fresh =>
    have member : ∀ {r}, r ∈ (w.progressed index request p).store.outbox.rows ↔ r ∈ _ :=
      fun {r} => by rw [show (w.progressed index request p).store.outbox.rows = _ from rows]
    refine ⟨by simp [progressed], by simp, ?_, ?_⟩
    · intro r old
      exact ⟨r, member.mpr (List.mem_append_left _ old), rfl, .kept (by simp)⟩
    · intro r' isRow
      rcases List.mem_append.mp (member.mp isRow) with old | new
      · exact .inl ⟨r', old, rfl, .kept (by simp)⟩
      · rw [List.mem_singleton.mp new]
        exact .inr ⟨rfl, rfl, fresh⟩

theorem logged_acknowledge {workerId : String} {message : OutboxMessage} {batch : Batch}
    {delivery : Except String (List (String × String))} {db' : Store} {worker : Worker}
    {config : DispatcherConfig}
    (acknowledging : w.workers workerId = .acknowledging message delivery batch)
    (acknowledged : Acknowledged workerId config w.store message delivery batch db') :
    Logged w { w.setWorker workerId worker with
        store := db'
        leases := w.leases ++ ackEvents w.store db' workerId message.id delivery }
      (.acknowledge workerId : Label ε φ) (ackEvents w.store db' workerId message.id delivery) := by
  -- the row that changes is the one that the worker holds the lease of
  have row : ∀ {record r : OutboxMessage}, record ∈ w.store.outbox.rows → record.id = message.id →
      record.lockedBy = some workerId → r ∈ w.store.outbox.rows → r.id = message.id →
      r.lockedBy = some workerId := by
    intro record r found same owned member here
    rw [Table.eq_of_pk member found (here.trans same.symm)]
    exact owned
  cases acknowledged with
  | unchanged =>
    rw [ackEvents_unchanged]
    exact .of_same (List.append_nil _) rfl
  | @published record _ _ _ returned found same unpublished owned =>
    subst returned
    rw [ackEvents_published (Table.find?_eq_some.mpr ⟨found, same⟩) unpublished]
    refine .of_one rfl (show _ = message.id from rfl) ⟨record, found, same⟩ (publish_rows ..) ?_
    intro r member here
    exact ⟨rfl, .published rfl acknowledging here.symm (row found same owned member here)
      (by rw [here])⟩
  | @failed record _ returned found same owned =>
    subst returned
    rw [ackEvents_failed (Table.find?_eq_some.mpr ⟨found, same⟩)]
    refine .of_one rfl (show _ = message.id from rfl) ⟨record, found, same⟩ (fail_rows ..) ?_
    intro r member here
    exact ⟨(assignFailure_keepsKeys _ _ _ _ r).1,
      .failed rfl acknowledging here.symm (row found same owned member here) (by rw [here])⟩

theorem logged_step (moved : step platform w label = some w') : ∃ new, Logged w w' label new := by
  cases step_moves moved with
  | submit | load | start | crash | storeCase | storeReview => exact ⟨[], .of_same rfl rfl⟩
  | advance _ advances => exact ⟨[], logged_advance (advance_messages advances)⟩
  | @claim workerId now scan last chosen idle selected =>
    have events : (chosen.map fun m => LeaseEvent.claimed workerId m.id) =
        (chosen.map (·.id)).map (.claimed workerId) := by simp
    refine ⟨_, .of_map rfl ?_ (leaseAll_rows ..) ?_⟩
    · intro e member
      obtain ⟨m, mChosen, rfl⟩ := List.mem_map.mp member
      rw [selected] at mChosen
      exact ⟨m, (mem_selectBatch mChosen).1, rfl⟩
    · intro r member
      rw [events]
      by_cases here : r.id ∈ chosen.map (·.id)
      · rw [if_pos here]
        exact ⟨rfl, .leased rfl rfl here⟩
      · rw [if_neg here]
        refine ⟨rfl, .kept ?_⟩
        intro e eMember same
        obtain ⟨id, idMember, rfl⟩ := List.mem_map.mp eMember
        have about : id = r.id := same
        exact here (about ▸ idMember)
  | acknowledge acknowledging _ acknowledged => exact ⟨_, logged_acknowledge acknowledging acknowledged⟩

end SupplierAssurance.World
