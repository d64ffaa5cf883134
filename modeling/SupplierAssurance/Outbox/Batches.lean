import SupplierAssurance.Outbox.Steps

/-! # One message does not stop its batch, unless its lease is lost

`dispatch_once` catches what the handler raises for one message and goes on with the next
one.  The acknowledgements raise too, and nothing in the loop catches that: a worker that has
lost the lease of one message drops the rest of its batch.

A call of `dispatch_once` is followed here from its claim to its return, with the steps of
all other parties in between.  `Underway` is what is known in the meantime of the messages
that are still in the worker's hands, and of those that it is done with.
-/

namespace SupplierAssurance.Outbox

open Python Lib Governance SqlAlchemyOutboxRepository

variable {workerId : String} {id : UUID} {since new : List LeaseEvent} {db : Store}
  {message row : OutboxMessage} {delivery : Except String (List (String × String))}

/-! ## Outcomes -/

/-- Since the claim of this copy the message was published, dead-lettered, or released for
    retry with its failure counted. -/
def Settled (claimed row : OutboxMessage) : Prop :=
  row.publishedAt.isSome ∨ row.deadLetteredAt.isSome ∨ claimed.attemptCount < row.attemptCount

/-- In the events since its claim, another worker has claimed the message before `workerId`
    acknowledged it. -/
def TakenOver (since : List LeaseEvent) (workerId : String) (id : UUID) : Prop :=
  ∃ before other after, since = before ++ .claimed other id :: after ∧ other ≠ workerId ∧
    ∀ e ∈ before, ¬ IsAcknowledgement e workerId id

theorem TakenOver.claimed (taken : TakenOver since workerId id) :
    ∃ other, .claimed other id ∈ since := by
  obtain ⟨before, other, after, rfl, _⟩ := taken
  exact ⟨other, by simp⟩

theorem TakenOver.append (taken : TakenOver since workerId id) (new : List LeaseEvent) :
    TakenOver (since ++ new) workerId id := by
  obtain ⟨before, other, after, rfl, differ, unacknowledged⟩ := taken
  exact ⟨before, other, after ++ new, by simp, differ, unacknowledged⟩

theorem IsAcknowledgement.worker {event : LeaseEvent} {first second : String} {id id' : UUID}
    (one : IsAcknowledgement event first id) (two : IsAcknowledgement event second id') :
    first = second := by
  rcases one with rfl | rfl
  · rcases two with same | same
    · exact (LeaseEvent.failed.inj same).1
    · cases same
  · rcases two with same | same
    · cases same
    · exact (LeaseEvent.published.inj same).1

/-! ## Acknowledgements -/

/-- With the lease in hand the acknowledgement settles the message, and the loop goes on. -/
theorem Worker.acknowledge_held (config : DispatcherConfig) (batch : Batch)
    (delivers : Delivers db.actions.rows db.outbox.rows)
    (found : db.outbox.find? message.id = some message) (owned : message.lockedBy = some workerId)
    (unpublished : message.publishedAt = none)
    (deliverable : ∀ result, delivery = .ok result → Deliverable result) :
    ∃ db' batch' row, Worker.acknowledge workerId config db message delivery batch =
      (db', .next batch') ∧ batch'.rest = batch.rest ∧ db'.outbox.find? message.id = some row ∧
      Settled message row := by
  have lease : requireLease message workerId = .ok () := by simp [requireLease, owned]
  cases delivery with
  | ok result =>
    obtain ⟨reference, delivered, fits⟩ := deliverable result rfl
    have member := (Table.find?_eq_some.mp found).1
    have starts := delivers.starts message member
    obtain ⟨action, actionMember, about⟩ := delivers.hasAction message member
    have loaded : db.actions.find? message.payload.actionId = some action :=
      Table.find?_eq_some.mpr ⟨actionMember, about.trans starts.payload.symm⟩
    have committed : markPublished db message.id workerId result batch.now =
        .ok (publish db message.id message.payload.actionId reference result batch.now) := by
      simp [markPublished, found, unpublished, lease, starts.eventType, delivered, loaded, fits]
    simp only [Worker.acknowledge, committed]
    exact ⟨_, _, _, rfl, rfl, find?_publish found, .inl rfl⟩
  | error errorType =>
    have counted : ∀ retryAt maxAttempts now,
        Settled message (assignFailure errorType retryAt maxAttempts now message) := by
      intro retryAt maxAttempts now
      refine .inr (.inr ?_)
      rw [assignFailure_attemptCount]
      exact Nat.lt_succ_self _
    simp only [Worker.acknowledge, recordFailure, found, lease]
    by_cases last : message.attemptCount + 1 ≥ config.maxAttempts
    · rw [decide_eq_true last]
      exact ⟨_, _, _, rfl, rfl, find?_fail found, counted _ _ _⟩
    · rw [decide_eq_false last]
      exact ⟨_, _, _, rfl, rfl, find?_fail found, counted _ _ _⟩

variable (workerId) in
/-- `mark_published` returns for a message that is published already, and the loop goes on. -/
theorem Worker.acknowledge_published (config : DispatcherConfig) (batch : Batch)
    (result : List (String × String)) (found : db.outbox.find? message.id = some row)
    (published : row.publishedAt.isSome) :
    ∃ batch', Worker.acknowledge workerId config db message (.ok result) batch =
      (db, .next batch') ∧ batch'.rest = batch.rest := by
  have returns : markPublished db message.id workerId result batch.now = .ok db := by
    simp [markPublished, found, published]
  simp only [Worker.acknowledge, returns]
  exact ⟨_, rfl, rfl⟩

/-- Otherwise a lost lease ends the call. -/
theorem Worker.acknowledge_lost (config : DispatcherConfig) (batch : Batch)
    (found : db.outbox.find? message.id = some row)
    (lost : row.lockedBy ≠ some workerId)
    (pending : ∀ result, delivery = .ok result → row.publishedAt = none) :
    ∃ e, Worker.acknowledge workerId config db message delivery batch =
      (db, .idle (some (.error e))) := by
  have lease : ∃ e, requireLease row workerId = .error e := by
    unfold requireLease
    rw [if_pos lost]
    exact ⟨_, rfl⟩
  obtain ⟨e, lease⟩ := lease
  cases delivery with
  | ok result =>
    have raises : markPublished db message.id workerId result batch.now = .error e := by
      simp [markPublished, found, pending result rfl, lease]
    exact ⟨e, by simp only [Worker.acknowledge, raises]⟩
  | error errorType =>
    have raises : ∀ retryAt, recordFailure db message.id workerId errorType retryAt
        config.maxAttempts batch.now = .error e := by
      intro retryAt
      simp [recordFailure, found, lease]
    exact ⟨e, by simp only [Worker.acknowledge, raises]⟩

end SupplierAssurance.Outbox

namespace SupplierAssurance.World

open Python Lib Governance Outbox SqlAlchemyOutboxRepository

variable {σ ε ω φ : Type} {platform : Platform σ ε ω φ} {w w' : World σ ω} {label : Label ε φ}

/-! ## Steps -/

theorem RowMoves.settled {new : List LeaseEvent} {claimed r r' : OutboxMessage}
    (moves : RowMoves w label new r r') (settled : Settled claimed r) : Settled claimed r' := by
  cases moves with
  | kept => exact settled
  | leased => exact settled
  | published => exact .inl rfl
  | failed =>
    unfold assignFailure
    split
    · exact .inr (.inl rfl)
    · rcases settled with published | dead | counted
      · exact .inl published
      · exact .inr (.inl dead)
      · exact .inr (.inr (Nat.lt_succ_of_lt counted))

/-! ## Calls -/

/-- A step of any party during a call of `workerId`: the call has not returned, the worker does
    not crash, and a handler that succeeds returns a reference. -/
def InCall (workerId : String) (w : World σ ω) (label : Label ε φ) : Prop :=
  label ≠ .crash workerId ∧ (∀ last, w.workers workerId ≠ .idle last) ∧
    ∀ message result batch, w.workers workerId = .acknowledging message (.ok result) batch →
      (workflowReference result).isSome

/-- The call that claimed its batch in `claimed` has handed the message to the handler. -/
def HandedBy (platform : Platform σ ε ω φ) (workerId : String) (claimed w : World σ ω)
    (message : OutboxMessage) : Prop :=
  ∃ u batch, StepsWhen (step platform) (InCall workerId) claimed u ∧
    u.workers workerId = .loading message batch ∧
    StepsWhen (step platform) (InCall workerId) u w

theorem HandedBy.step {workerId : String} {claimed : World σ ω} {message : OutboxMessage}
    (handed : HandedBy platform workerId claimed w message) (inCall : InCall workerId w label)
    (moved : World.step platform w label = some w') :
    HandedBy platform workerId claimed w' message := by
  obtain ⟨u, batch, first, loading, second⟩ := handed
  exact ⟨u, batch, first, loading, .tail second inCall moved⟩

/-- A message in the worker's hands: its row is the copy, or the lease was taken over. -/
structure Waiting (workerId : String) (since : List LeaseEvent) (rows : List OutboxMessage)
    (m : OutboxMessage) : Prop where
  copy : m.lockedBy = some workerId ∧ m.publishedAt = none ∧ m.deadLetteredAt = none
  unacknowledged : ∀ e ∈ since, ¬ IsAcknowledgement e workerId m.id
  row : ∃ row ∈ rows, row.id = m.id ∧
    ((row = m ∧ ∀ other, .claimed other m.id ∉ since) ∨
      (row.lockedBy ≠ some workerId ∧ TakenOver since workerId m.id))

theorem no_acknowledgement_of_other {event : LeaseEvent} {workerId other : String} {id id' : UUID}
    (acknowledged : IsAcknowledgement event other id') (differ : other ≠ workerId) :
    ∀ e ∈ [event], ¬ IsAcknowledgement e workerId id := by
  intro e member mine
  rw [List.mem_singleton.mp member] at mine
  exact differ (acknowledged.worker mine)

theorem no_acknowledgement_of_claims (claimer workerId : String) (ids : List UUID) (id : UUID) :
    ∀ e ∈ ids.map (.claimed claimer), ¬ IsAcknowledgement e workerId id := by
  intro e member acknowledged
  obtain ⟨_, _, rfl⟩ := List.mem_map.mp member
  rcases acknowledged with impossible | impossible <;> cases impossible

section Waiting

variable {workerId : String} {since new : List LeaseEvent} {rows rows' : List OutboxMessage}
  {m row' : OutboxMessage}

theorem Waiting.unacknowledged_append (waiting : Waiting workerId since rows m)
    (fresh : ∀ e ∈ new, ¬ IsAcknowledgement e workerId m.id) :
    ∀ e ∈ since ++ new, ¬ IsAcknowledgement e workerId m.id := by
  intro e member
  rcases List.mem_append.mp member with old | added
  · exact waiting.unacknowledged e old
  · exact fresh e added

/-- The lease is lost, if it was not lost before. -/
theorem Waiting.lose (waiting : Waiting workerId since rows m) (member : row' ∈ rows')
    (same : row'.id = m.id) (fresh : ∀ e ∈ new, ¬ IsAcknowledgement e workerId m.id)
    (lost : row'.lockedBy ≠ some workerId) (taken : TakenOver (since ++ new) workerId m.id) :
    Waiting workerId (since ++ new) rows' m :=
  ⟨waiting.copy, waiting.unacknowledged_append fresh, row', member, same, .inr ⟨lost, taken⟩⟩

/-- Another worker claims the message. -/
theorem Waiting.takenOver (waiting : Waiting workerId since rows m) {claimer : String}
    (differ : claimer ≠ workerId) {ids : List UUID} (chosen : m.id ∈ ids) :
    TakenOver (since ++ ids.map (.claimed claimer)) workerId m.id := by
  obtain ⟨front, back, rfl⟩ := List.append_of_mem chosen
  refine ⟨since ++ front.map (.claimed claimer), claimer, back.map (.claimed claimer), by simp, differ,
    ?_⟩
  exact waiting.unacknowledged_append (no_acknowledgement_of_claims _ _ front _)

theorem Waiting.step (waiting : Waiting workerId since w.store.outbox.rows m)
    (inCall : InCall workerId w label) (moved : World.step platform w label = some w')
    (logged : Logged w w' label new)
    (notMine : label = .acknowledge workerId → ∀ message delivery batch,
      w.workers workerId = .acknowledging message delivery batch → message.id ≠ m.id) :
    Waiting workerId (since ++ new) w'.store.outbox.rows m := by
  obtain ⟨row, member, same, state⟩ := waiting.row
  obtain ⟨row', member', same', moves⟩ := logged.moves row member
  have here : row'.id = m.id := same'.trans same
  -- whoever acknowledges the message holds its lease, so this worker has lost it before
  have foreign : ∀ other, row.lockedBy = some other → other ≠ workerId →
      TakenOver (since ++ new) workerId m.id := by
    intro other owned differ
    rcases state with ⟨isCopy, _⟩ | ⟨_, taken⟩
    · rw [isCopy, waiting.copy.1] at owned
      exact absurd (Option.some.inj owned).symm differ
    · exact taken.append new
  cases moves with
  | kept elsewhere =>
    have elsewhere : ∀ e ∈ new, e.messageId ≠ m.id := same ▸ elsewhere
    refine ⟨waiting.copy, waiting.unacknowledged_append ?_, row, member', same, ?_⟩
    · exact fun e eMember acknowledged => elsewhere e eMember acknowledged.messageId
    · rcases state with ⟨isCopy, unclaimed⟩ | ⟨lost, taken⟩
      · refine .inl ⟨isCopy, ?_⟩
        intro other claimed
        rcases List.mem_append.mp claimed with old | added
        · exact unclaimed other old
        · exact elsewhere _ added rfl
      · exact .inr ⟨lost, taken.append new⟩
  | @leased claimer now scan ids isClaim events chosen =>
    subst isClaim events
    have differ : claimer ≠ workerId := by
      rintro rfl
      cases step_moves moved with
      | claim idle => exact inCall.2.1 _ idle
    rw [same] at chosen
    exact waiting.lose member' here (no_acknowledgement_of_claims _ _ ids _)
      (fun owned => differ (Option.some.inj owned)) (waiting.takenOver differ chosen)
  | @published other _ _ _ _ _ isAck acknowledging about owned events =>
    subst isAck events
    have differ : other ≠ workerId := by
      rintro rfl
      exact notMine rfl _ _ _ acknowledging (about.trans same)
    exact waiting.lose member' here (no_acknowledgement_of_other (.inr rfl) differ)
      (by simp [assignPublished]) (foreign other owned differ)
  | @failed other _ _ _ _ _ _ _ isAck acknowledging about owned events =>
    subst isAck events
    have differ : other ≠ workerId := by
      rintro rfl
      exact notMine rfl _ _ _ acknowledging (about.trans same)
    refine waiting.lose member' here (no_acknowledgement_of_other (.inl rfl) differ) ?_
      (foreign other owned differ)
    rw [(assignFailure_unlocked _ _ _ _ row).2]
    simp

end Waiting

/-- A message that the call is done with. -/
def Finished (workerId : String) (since : List LeaseEvent) (rows : List OutboxMessage)
    (m : OutboxMessage) : Prop :=
  TakenOver since workerId m.id ∨ ∃ row ∈ rows, row.id = m.id ∧ Settled m row

theorem Finished.step {workerId : String} {since new : List LeaseEvent} {m : OutboxMessage}
    (finished : Finished workerId since w.store.outbox.rows m) (logged : Logged w w' label new) :
    Finished workerId (since ++ new) w'.store.outbox.rows m := by
  rcases finished with taken | ⟨row, member, same, settled⟩
  · exact .inl (taken.append new)
  · obtain ⟨row', member', same', moves⟩ := logged.moves row member
    exact .inr ⟨row', member', same'.trans same, moves.settled settled⟩

/-- A call with `message` in progress: the messages before it are finished, it has been handed
    to the handler, and it and the rest wait for their acknowledgement. -/
structure Underway (platform : Platform σ ε ω φ) (workerId : String) (claimed w : World σ ω)
    (since : List LeaseEvent) (finished : List OutboxMessage) (message : OutboxMessage)
    (rest : List OutboxMessage) : Prop where
  log : w.leases = claimed.leases ++ since
  batch : (claimed.workers workerId).hands = finished ++ message :: rest
  hands : (w.workers workerId).hands = message :: rest
  handed : HandedBy platform workerId claimed w message
  finished : ∀ m ∈ finished, HandedBy platform workerId claimed w m ∧
    Finished workerId since w.store.outbox.rows m
  waiting : ∀ m ∈ message :: rest, Waiting workerId since w.store.outbox.rows m

section Call

variable {workerId : String} {claimed : World σ ω} {since : List LeaseEvent}
  {finished rest : List OutboxMessage} {message : OutboxMessage}

/-- Between its acknowledgements a worker keeps what it has in its hands. -/
theorem hands_step (inCall : InCall workerId w label) (other : label ≠ .acknowledge workerId)
    (moved : step platform w label = some w') :
    (w'.workers workerId).hands = (w.workers workerId).hands := by
  have moves := worker_moves moved workerId
  generalize w'.workers workerId = worker at moves
  cases moves with
  | kept => rfl
  | claimed idle => exact absurd idle (inCall.2.1 _)
  | loaded loading =>
    rw [Worker.hands_load, loading]
    rfl
  | started starting =>
    rw [Worker.hands_started, starting]
    rfl
  | acknowledged => exact absurd rfl other
  | crashed => exact absurd rfl inCall.1

theorem Underway.other (underway : Underway platform workerId claimed w since finished message rest)
    (inCall : InCall workerId w label) (other : label ≠ .acknowledge workerId)
    (moved : step platform w label = some w') :
    ∃ since, Underway platform workerId claimed w' since finished message rest := by
  obtain ⟨new, logged⟩ := logged_step moved
  refine ⟨since ++ new, ?_, underway.batch, ?_, underway.handed.step inCall moved, ?_, ?_⟩
  · rw [logged.log, underway.log, List.append_assoc]
  · rw [hands_step inCall other moved, underway.hands]
  · intro m member
    obtain ⟨handed, done⟩ := underway.finished m member
    exact ⟨handed.step inCall moved, done.step logged⟩
  · intro m member
    exact (underway.waiting m member).step inCall moved logged fun isAck => absurd isAck other

/-- The acknowledgement of `message` does not raise: the worker holds its lease, or its
    delivery succeeded and somebody else has published the message. -/
def LeaseStands (db : Store) (workerId : String) (message : OutboxMessage)
    (delivery : Except String (List (String × String))) : Prop :=
  ∃ row, db.outbox.find? message.id = some row ∧
    (row.lockedBy = some workerId ∨ (row.publishedAt.isSome ∧ ∃ result, delivery = .ok result))

theorem Underway.acknowledge
    (underway : Underway platform workerId claimed w since finished message rest)
    (delivers : Delivers w.store.actions.rows w.store.outbox.rows) (referenced : w.Referenced)
    (inCall : InCall workerId w (.acknowledge workerId : Label ε φ))
    (moved : step platform w (.acknowledge workerId) = some w') :
    ∃ delivery batch new, w.workers workerId = .acknowledging message delivery batch ∧
      batch.rest = rest ∧ Logged w w' (.acknowledge workerId : Label ε φ) new ∧
      ((LeaseStands w.store workerId message delivery ∧
        (∃ batch', w'.workers workerId = .next batch' ∧ batch'.rest = rest) ∧
        Finished workerId (since ++ new) w'.store.outbox.rows message) ∨
      (¬ LeaseStands w.store workerId message delivery ∧
        (∃ e, w'.workers workerId = .idle (some (.error e))) ∧ w'.store = w.store ∧ new = [] ∧
        TakenOver since workerId message.id)) := by
  cases step_moves moved with
  | @acknowledge _ inProgress batch delivery db' worker acknowledging done acknowledged =>
    have hands := underway.hands
    rw [acknowledging] at hands
    obtain ⟨rfl, restEq⟩ := List.cons.inj hands
    refine ⟨delivery, batch, _, acknowledging, restEq,
      logged_acknowledge acknowledging acknowledged, ?_⟩
    have waiting := underway.waiting inProgress List.mem_cons_self
    obtain ⟨row, member, same, state⟩ := waiting.row
    have found : w.store.outbox.find? inProgress.id = some row :=
      Table.find?_eq_some.mpr ⟨member, same⟩
    have moveOn : (setWorker w workerId worker).workers workerId = worker := Function.update_self ..
    rcases state with ⟨rfl, _⟩ | ⟨lost, taken⟩
    · -- the row is still the copy, so the lease stands
      have deliverable : ∀ result, delivery = .ok result → Deliverable result := by
        rintro result rfl
        have fits := referenced workerId
        rw [acknowledging] at fits
        exact fits.deliverable (inCall.2.2 row result batch acknowledging)
      obtain ⟨_, batch', row', acknowledged, left, settledRow, settled⟩ :=
        Worker.acknowledge_held (platform.config workerId) batch delivers found waiting.copy.1
          waiting.copy.2.1 deliverable
      obtain ⟨rfl, rfl⟩ := Prod.mk.inj (done.symm.trans acknowledged)
      obtain ⟨member', same'⟩ := Table.find?_eq_some.mp settledRow
      exact .inl ⟨⟨row, found, .inl waiting.copy.1⟩, ⟨batch', moveOn, left.trans restEq⟩,
        .inr ⟨row', member', same', settled⟩⟩
    · -- `mark_published` looks at `published_at` first, `record_failure` does not
      by_cases published : row.publishedAt.isSome ∧ ∃ result, delivery = .ok result
      · obtain ⟨isPublished, result, rfl⟩ := published
        obtain ⟨batch', acknowledged, left⟩ := Worker.acknowledge_published workerId
          (platform.config workerId) batch result found isPublished
        obtain ⟨rfl, rfl⟩ := Prod.mk.inj (done.symm.trans acknowledged)
        exact .inl ⟨⟨row, found, .inr ⟨isPublished, result, rfl⟩⟩, ⟨batch', moveOn, left.trans restEq⟩,
          .inl (taken.append _)⟩
      · have unpublished : ∀ result, delivery = .ok result → row.publishedAt = none := by
          intro result isOk
          exact Option.not_isSome_iff_eq_none.mp fun isPublished => published ⟨isPublished, result, isOk⟩
        obtain ⟨e, acknowledged⟩ :=
          Worker.acknowledge_lost (platform.config workerId) batch found lost unpublished
        obtain ⟨rfl, rfl⟩ := Prod.mk.inj (done.symm.trans acknowledged)
        refine .inr ⟨?_, ⟨e, moveOn⟩, rfl, ackEvents_unchanged delivery, taken⟩
        rintro ⟨row', found', stands⟩
        obtain rfl : row = row' := Option.some.inj (found.symm.trans found')
        rcases stands with owned | both
        · exact lost owned
        · exact published both

/-! ## Whole calls -/

theorem selectBatch_distinct (db : Store) (batchSize : Nat) (lockTimeout : Timedelta) (now : Datetime)
    (scan : Scan) : ((selectBatch db batchSize lockTimeout now scan).map (·.id)).Nodup := by
  have sorted := List.perm_insertionSort (claimOrder scan.rank)
    (db.outbox.rows.filter fun m => claimable now lockTimeout m && m.id ∉ scan.skipLocked)
  have filtered : ((db.outbox.rows.filter fun m =>
      claimable now lockTimeout m && m.id ∉ scan.skipLocked).map (·.id)).Nodup :=
    db.outbox.pkUnique.sublist (List.filter_sublist.map _)
  exact ((sorted.map _).nodup_iff.mpr filtered).sublist ((List.take_sublist _ _).map _)

/-- What a claim hands to its worker. -/
theorem claim_copies {now : Datetime} {scan : Scan}
    (claim : step platform w (.claim workerId now scan) = some claimed) :
    ∃ batch, claimed.workers workerId = .next batch ∧ (batch.rest.map (·.id)).Nodup ∧
      ∀ m ∈ batch.rest, Waiting workerId [] claimed.store.outbox.rows m := by
  cases step_moves claim with
  | @claim _ _ _ _ chosen idle selected =>
    refine ⟨_, Function.update_self .., ?_, ?_⟩
    · rw [List.map_map, selected]
      exact selectBatch_distinct _ _ _ _ _
    · intro m member
      obtain ⟨n, nChosen, rfl⟩ := List.mem_map.mp member
      have inStore := nChosen
      rw [selected] at inStore
      obtain ⟨nMember, eligible⟩ := mem_selectBatch inStore
      obtain ⟨unpublished, alive⟩ := claimable_active eligible
      refine ⟨⟨rfl, unpublished, alive⟩, by simp, lease workerId now n, ?_, rfl, .inl ⟨rfl, by simp⟩⟩
      show _ ∈ (Store.outbox _).rows
      rw [leaseAll_rows]
      exact List.mem_map.mpr ⟨n, nMember, if_pos (List.mem_map.mpr ⟨n, nChosen, rfl⟩)⟩

/-- The worker that goes on with the rest of its batch. -/
theorem next_busy {batch : Batch} (busy : ∀ last, Worker.next batch ≠ .idle last) :
    ∃ message rest, batch.rest = message :: rest ∧
      Worker.next batch = .loading message { batch with rest } := by
  unfold Worker.next at busy ⊢
  split at busy
  · exact absurd rfl (busy _)
  next message rest left => exact ⟨message, rest, left, rfl⟩

theorem Underway.start {now : Datetime} {scan : Scan}
    (claim : step platform w (.claim workerId now scan) = some claimed)
    (busy : ∀ last, claimed.workers workerId ≠ .idle last) :
    ∃ message rest, Underway platform workerId claimed claimed [] [] message rest := by
  obtain ⟨batch, worker, _, waiting⟩ := claim_copies claim
  rw [worker] at busy
  obtain ⟨message, rest, left, loading⟩ := next_busy busy
  rw [left] at waiting
  have hands : (claimed.workers workerId).hands = message :: rest := by
    rw [worker, Worker.hands_next, left]
  exact ⟨message, rest, by simp, hands, hands,
    ⟨claimed, _, .refl, worker.trans loading, .refl⟩, by simp, waiting⟩

/-- The acknowledgement that does not raise goes on to the next message. -/
theorem Underway.next {batch batch' : Batch} {new : List LeaseEvent}
    {delivery : Except String (List (String × String))}
    (underway : Underway platform workerId claimed w since finished message rest)
    (inCall : InCall workerId w label) (moved : step platform w label = some w')
    (logged : Logged w w' label new) (worker : w'.workers workerId = .next batch')
    (left : batch'.rest = rest) (done : Finished workerId (since ++ new) w'.store.outbox.rows message)
    (distinct : ((claimed.workers workerId).hands.map (·.id)).Nodup)
    (acknowledging : w.workers workerId = .acknowledging message delivery batch)
    (busy : ∀ last, w'.workers workerId ≠ .idle last) :
    ∃ message' rest', Underway platform workerId claimed w' (since ++ new) (finished ++ [message])
      message' rest' := by
  rw [worker] at busy
  obtain ⟨message', rest', left', loading⟩ := next_busy busy
  have restEq : rest = message' :: rest' := left.symm.trans left'
  have others : ∀ m ∈ rest, message.id ≠ m.id := by
    rw [underway.batch, List.map_append, List.map_cons] at distinct
    intro m member same
    have fresh := (List.nodup_cons.mp (List.nodup_append.mp distinct).2.1).1
    exact fresh (same ▸ List.mem_map_of_mem member)
  have along : StepsWhen (step platform) (InCall workerId) claimed w' := by
    obtain ⟨_, _, first, _, second⟩ := underway.handed
    exact .tail (first.trans second) inCall moved
  refine ⟨message', rest', ?_, ?_, ?_, ?_, ?_, ?_⟩
  · rw [logged.log, underway.log, List.append_assoc]
  · rw [underway.batch, restEq]
    simp
  · rw [worker, Worker.hands_next, left']
  · exact ⟨w', _, along, worker.trans loading, .refl⟩
  · intro m member
    rcases List.mem_append.mp member with old | current
    · obtain ⟨handed, before⟩ := underway.finished m old
      exact ⟨handed.step inCall moved, before.step logged⟩
    · rw [List.mem_singleton.mp current]
      exact ⟨underway.handed.step inCall moved, done⟩
  · intro m member
    rw [← restEq] at member
    refine (underway.waiting m (List.mem_cons_of_mem _ member)).step inCall moved logged ?_
    intro _ _ _ _ acknowledging'
    cases acknowledging.symm.trans acknowledging'
    exact others m member

theorem underway_run {before : World σ ω} {now : Datetime} {scan : Scan}
    (reachable : Reachable platform before)
    (claim : step platform before (.claim workerId now scan) = some claimed)
    (steps : StepsWhen (step platform) (InCall workerId) claimed w)
    (busy : ∀ last, w.workers workerId ≠ .idle last) :
    ∃ since finished message rest,
      Underway platform workerId claimed w since finished message rest := by
  have distinct : ((claimed.workers workerId).hands.map (·.id)).Nodup := by
    obtain ⟨batch, worker, distinct, _⟩ := claim_copies claim
    rw [worker, Worker.hands_next]
    exact distinct
  have along : Reachable platform w ∧ ((∀ last, w.workers workerId ≠ .idle last) →
      ∃ since finished message rest,
        Underway platform workerId claimed w since finished message rest) := by
    -- the invariant: while the worker is busy, its batch is under way
    apply steps.invariant
    · refine ⟨reachable.step claim, fun busy => ?_⟩
      obtain ⟨message, rest, underway⟩ := Underway.start claim busy
      exact ⟨[], [], message, rest, underway⟩
    · intro u label u' holds inCall moved
      refine ⟨holds.1.step moved, fun busy => ?_⟩
      obtain ⟨since, finished, message, rest, underway⟩ := holds.2 inCall.2.1
      by_cases isAck : label = .acknowledge workerId
      · subst isAck
        have delivering : u.Delivering := holds.1.invariant delivering_inductive
        obtain ⟨delivery, batch, new, acknowledging, _, logged, outcome⟩ :=
          underway.acknowledge delivering.delivers (holds.1.invariant referenced_inductive) inCall moved
        rcases outcome with ⟨_, ⟨batch', worker, left⟩, done⟩ | ⟨_, ⟨e, raised⟩, _⟩
        · obtain ⟨message', rest', next⟩ :=
            underway.next inCall moved logged worker left done distinct acknowledging busy
          exact ⟨_, _, message', rest', next⟩
        · exact absurd raised (busy _)
      · obtain ⟨since', next⟩ := underway.other inCall isAck moved
        exact ⟨since', finished, message, rest, next⟩
  exact along.2 busy

end Call

/-- A call of `dispatch_once` that has claimed messages: its claim, the steps of all parties
    during the call, and the acknowledgement it returns after. -/
structure CompleteCall (platform : Platform σ ε ω φ) (workerId : String) (claimed w w' : World σ ω) :
    Prop where
  claim : ∃ before now scan, Reachable platform before ∧
    step platform before (.claim workerId now scan) = some claimed
  steps : StepsWhen (step platform) (InCall workerId) claimed w
  last : InCall workerId w (.acknowledge workerId : Label ε φ)
  acknowledged : step platform w (.acknowledge workerId) = some w'
  returned : ∃ result, w'.workers workerId = .idle (some result)

/-- Each claimed message whose lease is not taken over has been handed to the handler, and is
    published, dead-lettered or released for retry. -/
def BatchSettled (platform : Platform σ ε ω φ) (workerId : String) (claimed w' : World σ ω) : Prop :=
  ∀ m ∈ (claimed.workers workerId).hands, ∀ since, w'.leases = claimed.leases ++ since →
    ¬ TakenOver since workerId m.id → HandedBy platform workerId claimed w' m ∧
      ∃ row, w'.store.outbox.find? m.id = some row ∧ Settled m row

/-- Before the last acknowledgement of the call: it does not raise, or the leases of all the
    messages that are still to be delivered are lost as well. -/
def Unbroken (workerId : String) (w : World σ ω) : Prop :=
  ∀ message delivery batch, w.workers workerId = .acknowledging message delivery batch →
    LeaseStands w.store workerId message delivery ∨
      ∀ m ∈ batch.rest, ∀ row, w.store.outbox.find? m.id = some row →
        row.lockedBy ≠ some workerId

section Complete

variable {workerId : String} {claimed : World σ ω}

theorem Finished.settled {since : List LeaseEvent} {m : OutboxMessage}
    (finished : Finished workerId since w.store.outbox.rows m)
    (kept : ¬ TakenOver since workerId m.id) :
    ∃ row, w.store.outbox.find? m.id = some row ∧ Settled m row := by
  rcases finished with taken | ⟨row, member, same, settled⟩
  · exact absurd taken kept
  · exact ⟨row, Table.find?_eq_some.mpr ⟨member, same⟩, settled⟩

/-- A message in the worker's hands is settled by nobody while its lease stands. -/
theorem Waiting.unsettled {since : List LeaseEvent} {m row : OutboxMessage}
    (waiting : Waiting workerId since w.store.outbox.rows m)
    (found : w.store.outbox.find? m.id = some row) (owned : row.lockedBy = some workerId) :
    ¬ TakenOver since workerId m.id ∧ ¬ Settled m row := by
  obtain ⟨row', member, same, state⟩ := waiting.row
  obtain rfl : row' = row :=
    Option.some.inj ((Table.find?_eq_some.mpr ⟨member, same⟩).symm.trans found)
  rcases state with ⟨rfl, unclaimed⟩ | ⟨lost, _⟩
  · refine ⟨fun taken => ?_, ?_⟩
    · obtain ⟨other, claimed⟩ := taken.claimed
      exact unclaimed other claimed
    · rintro (published | dead | counted)
      · simp [waiting.copy.2.1] at published
      · simp [waiting.copy.2.2] at dead
      · exact Nat.lt_irrefl _ counted
  · exact absurd owned lost

/-- A finished message stays so to the end of the call. -/
theorem Underway.settled_before {w w' : World σ ω} {since new : List LeaseEvent}
    {finished rest : List OutboxMessage} {message : OutboxMessage}
    (underway : Underway platform workerId claimed w since finished message rest)
    (call : CompleteCall platform workerId claimed w w')
    (logged : Logged w w' (.acknowledge workerId : Label ε φ) new) :
    ∀ m ∈ finished, ¬ TakenOver (since ++ new) workerId m.id →
      HandedBy platform workerId claimed w' m ∧
        ∃ row, w'.store.outbox.find? m.id = some row ∧ Settled m row := by
  intro m member kept
  obtain ⟨handed, done⟩ := underway.finished m member
  exact ⟨handed.step call.last call.acknowledged, (done.step logged).settled kept⟩

theorem Underway.events {w w' : World σ ω} {since new : List LeaseEvent}
    {finished rest : List OutboxMessage} {message : OutboxMessage}
    (underway : Underway platform workerId claimed w since finished message rest)
    (log : w'.leases = w.leases ++ new) {since' : List LeaseEvent}
    (log' : w'.leases = claimed.leases ++ since') : since' = since ++ new := by
  rw [log, underway.log, List.append_assoc] at log'
  exact (List.append_cancel_left log').symm

/-- The call that returns normally has nothing left. -/
theorem batchSettled_of_next {w w' : World σ ω} {since new : List LeaseEvent}
    {finished rest : List OutboxMessage} {message : OutboxMessage} {batch : Batch}
    (underway : Underway platform workerId claimed w since finished message rest)
    (call : CompleteCall platform workerId claimed w w')
    (logged : Logged w w' (.acknowledge workerId : Label ε φ) new)
    (worker : w'.workers workerId = .next batch) (left : batch.rest = rest)
    (done : Finished workerId (since ++ new) w'.store.outbox.rows message) :
    BatchSettled platform workerId claimed w' := by
  have empty : rest = [] := by
    obtain ⟨result, idle⟩ := call.returned
    have hands := congrArg Worker.hands (worker.symm.trans idle)
    rw [Worker.hands_next, left] at hands
    exact hands
  intro m member since' log' kept
  rw [underway.events logged.log log'] at kept
  rw [underway.batch, empty] at member
  rcases List.mem_append.mp member with old | current
  · exact underway.settled_before call logged m old kept
  · obtain rfl := List.mem_singleton.mp current
    exact ⟨underway.handed.step call.last call.acknowledged, done.settled kept⟩

/-- The call that raises leaves the rest of its batch as it is. -/
theorem batchSettled_iff_of_raised {w w' : World σ ω} {since : List LeaseEvent}
    {finished rest : List OutboxMessage} {message : OutboxMessage}
    (underway : Underway platform workerId claimed w since finished message rest)
    (call : CompleteCall platform workerId claimed w w')
    (logged : Logged w w' (.acknowledge workerId : Label ε φ) [])
    (store : w'.store = w.store) (taken : TakenOver since workerId message.id) :
    BatchSettled platform workerId claimed w' ↔
      ∀ m ∈ rest, ∀ row, w.store.outbox.find? m.id = some row → row.lockedBy ≠ some workerId := by
  have log : w'.leases = w.leases := by rw [logged.log, List.append_nil]
  constructor
  · intro settled m member row found owned
    have inBatch : m ∈ (claimed.workers workerId).hands := by
      rw [underway.batch]
      simp [member]
    obtain ⟨kept, unsettled⟩ :=
      (underway.waiting m (List.mem_cons_of_mem _ member)).unsettled found owned
    obtain ⟨_, row', found', done⟩ := settled m inBatch since (log.trans underway.log) kept
    rw [store] at found'
    exact unsettled (Option.some.inj (found'.symm.trans found) ▸ done)
  · intro lost m member since' log' kept
    rw [underway.events logged.log log'] at kept
    rw [underway.batch] at member
    rcases List.mem_append.mp member with old | later
    · exact underway.settled_before call logged m old kept
    · rw [List.append_nil] at kept
      rcases List.mem_cons.mp later with rfl | waits
      · exact absurd taken kept
      · have waiting := underway.waiting m (List.mem_cons_of_mem _ waits)
        obtain ⟨row, rowMember, same, state⟩ := waiting.row
        rcases state with ⟨rfl, _⟩ | ⟨_, takenToo⟩
        · exact absurd waiting.copy.1 (lost row waits row (Table.find?_eq_some.mpr ⟨rowMember, rfl⟩))
        · exact absurd takenToo kept

theorem batchSettled_iff_unbroken {w w' : World σ ω}
    (call : CompleteCall platform workerId claimed w w') :
    BatchSettled platform workerId claimed w' ↔ Unbroken workerId w := by
  obtain ⟨before, now, scan, reachable, claim⟩ := call.claim
  obtain ⟨since, finished, message, rest, underway⟩ :=
    underway_run reachable claim call.steps call.last.2.1
  have here : Reachable platform w :=
    call.steps.invariant (reachable.step claim) fun holds _ moved => holds.step moved
  have delivering : w.Delivering := here.invariant delivering_inductive
  obtain ⟨delivery, batch, new, acknowledging, left, logged, outcome⟩ :=
    underway.acknowledge delivering.delivers (here.invariant referenced_inductive) call.last
      call.acknowledged
  -- only the last acknowledgement can still find its lease broken
  have current : Unbroken workerId w ↔ LeaseStands w.store workerId message delivery ∨
      ∀ m ∈ rest, ∀ row, w.store.outbox.find? m.id = some row → row.lockedBy ≠ some workerId := by
    rw [← left]
    constructor
    · intro unbroken
      exact unbroken message delivery batch acknowledging
    · intro holds _ _ _ acknowledging'
      cases acknowledging.symm.trans acknowledging'
      exact holds
  rw [current]
  rcases outcome with ⟨stands, ⟨batch', worker, restEq⟩, done⟩ | ⟨broken, _, store, rfl, taken⟩
  · exact iff_of_true (batchSettled_of_next underway call logged worker restEq done) (.inl stands)
  · rw [batchSettled_iff_of_raised underway call logged store taken, or_iff_right broken]

end Complete

/-! ## Two calls -/

/-- `InCall` of a step that is not a crash. -/
def inCallTest (workerId : String) (w : World σ ω) : Bool :=
  match w.workers workerId with
  | .idle _ => false
  | .acknowledging _ (.ok result) _ => (workflowReference result).isSome
  | _ => true

theorem inCall_of_test {workerId : String} (passed : inCallTest workerId w = true)
    (alive : label ≠ .crash workerId) : InCall workerId w label := by
  unfold inCallTest at passed
  refine ⟨alive, ?_, ?_⟩
  · intro last idle
    rw [idle] at passed
    cases passed
  · intro message result batch acknowledging
    rw [acknowledging] at passed
    exact passed

/-- Replay a call that claims at `now`: the worlds after the claim, before the last
    acknowledgement and after it. -/
def replayCall (platform : Platform σ ε ω φ) (workerId : String) (now : Datetime)
    (during : List (Label ε φ)) (before : World σ ω) : Option (World σ ω × World σ ω × World σ ω) := do
  let claimed ← step platform before (.claim workerId now ⟨[], fun _ => 0⟩)
  let w ← runWhen (step platform) (fun u _ => inCallTest workerId u) claimed during
  let w' ← step platform w (.acknowledge workerId)
  if inCallTest workerId w then some (claimed, w, w') else none

def returned (workerId : String) (w : World σ ω) : Bool :=
  match w.workers workerId with
  | .idle (some _) => true
  | _ => false

theorem completeCall_of_replay {workerId : String} {now : Datetime} {during : List (Label ε φ)}
    {before claimed w w' : World σ ω} (reachable : Reachable platform before)
    (alive : .crash workerId ∉ during)
    (replayed : replayCall platform workerId now during before = some (claimed, w, w'))
    (idle : returned workerId w' = true) : CompleteCall platform workerId claimed w w' := by
  unfold replayCall at replayed
  simp only [Option.bind_eq_bind, Option.bind_eq_some_iff] at replayed
  obtain ⟨claimed', claim, w₂, ran, w₃, acknowledged, last⟩ := replayed
  split at last
  next busy =>
    cases last
    refine ⟨⟨before, now, _, reachable, claim⟩, ?_, inCall_of_test busy (by simp), acknowledged, ?_⟩
    · apply stepsWhen_of_runWhen _ ran
      intro s label member passed
      exact inCall_of_test passed fun crash => alive (crash ▸ member)
    · unfold returned at idle
      split at idle
      next result at_ => exact ⟨result, at_⟩
      next => cases idle
  next => cases last

end SupplierAssurance.World

namespace SupplierAssurance.Sample.Batches

open Python Governance Outbox

def platform : Platform (List (UUID × ExecutionReceipt)) Datetime Unit Unit where
  supplier := inMemorySupplierSystem
  workflow := Workflows.localApprovalWorkflow
  config _ := { config with batchSize := 2 }
  references_fit := Workflows.localApprovalWorkflow_fits

def propose (index : Nat) (r : ProposeRequest) : List (Label Datetime Unit) :=
  [.submit (.propose r) 1, .advance index (ambient 2 (2 * index)) 0,
    .advance index (ambient (index + 3) (2 * index + 1)) 0]

/-- A worker has died with the message of the first proposal; two more are waiting. -/
def waiting : List (Label Datetime Unit) :=
  propose 0 proposalA ++ [.claim "dead" 10 ⟨[], fun _ => 0⟩, .crash "dead"] ++ propose 1 proposalB ++
    propose 2 { proposalA with request := ⟨⟨0xd⟩⟩ }

/-- The first delivery of "slow" takes so long that "fast" claims the two oldest messages. -/
def takeover : List (Label Datetime Unit) :=
  [.load "slow", .claim "fast" 130000000 ⟨[], fun _ => 0⟩, .start "slow" ()]

/-- Nobody interferes. -/
def undisturbed : List (Label Datetime Unit) :=
  [.load "slow", .start "slow" (), .acknowledge "slow", .load "slow", .start "slow" ()]

end SupplierAssurance.Sample.Batches

namespace SupplierAssurance.World

open Python Lib Governance Outbox SqlAlchemyOutboxRepository

/-- A call after the waiting messages of the sample, with what a test finds in its worlds. -/
theorem sample_call {during : List (Label Datetime Unit)}
    {test : World (List (UUID × ExecutionReceipt)) Unit → World (List (UUID × ExecutionReceipt)) Unit →
      World (List (UUID × ExecutionReceipt)) Unit → Bool}
    (alive : .crash "slow" ∉ during)
    (replayed : ((run (step Sample.Batches.platform)
      (initial [⟨0xa⟩, ⟨0xb⟩] [⟨0x1a⟩, ⟨0x1b⟩] [] ()) Sample.Batches.waiting).map fun before =>
      (replayCall Sample.Batches.platform "slow" 20 during before).any fun (claimed, w, w') =>
        returned "slow" w' && test claimed w w') = some true) :
    ∃ claimed w w', CompleteCall Sample.Batches.platform "slow" claimed w w' ∧
      test claimed w w' = true := by
  obtain ⟨before, reachable, called⟩ := reachable_of_run replayed
  obtain ⟨⟨claimed, w, w'⟩, replayed, passed⟩ := (Option.any_eq_true _ _).mp called
  obtain ⟨idle, passed⟩ := Bool.and_eq_true_iff.mp passed
  exact ⟨claimed, w, w', completeCall_of_replay reachable alive replayed idle, passed⟩

/-- The first message is taken over, the second is not and stays as it was claimed. -/
theorem lost_lease_drops_batch : ∃ claimed w w',
    CompleteCall Sample.Batches.platform "slow" claimed w w' ∧
      ¬ BatchSettled Sample.Batches.platform "slow" claimed w' := by
  obtain ⟨claimed, w, w', call, passed⟩ := @sample_call Sample.Batches.takeover
    (fun claimed _ w' => decide
      (w'.leases = claimed.leases ++ [.claimed "fast" ⟨3⟩, .claimed "fast" ⟨7⟩] ∧
        ∃ m ∈ (claimed.workers "slow").hands, m.id = ⟨11⟩ ∧
          (w'.store.outbox.find? ⟨11⟩).all fun row => row.publishedAt = none ∧
            row.deadLetteredAt = none ∧ row.attemptCount ≤ m.attemptCount))
    (by simp [Sample.Batches.takeover]) (by decide +kernel)
  obtain ⟨log, m, member, isSecond, untouched⟩ := of_decide_eq_true passed
  refine ⟨claimed, w, w', call, fun settled => ?_⟩
  have kept : ¬ TakenOver [.claimed "fast" ⟨3⟩, .claimed "fast" ⟨7⟩] "slow" m.id := by
    intro taken
    obtain ⟨other, claimedAgain⟩ := taken.claimed
    rw [isSecond] at claimedAgain
    simp at claimedAgain
  obtain ⟨_, row, found, done⟩ := settled m member _ log kept
  rw [isSecond] at found
  rw [found, Option.all_some, decide_eq_true_eq] at untouched
  obtain ⟨unpublished, alive, uncounted⟩ := untouched
  rcases done with published | dead | counted
  · simp [unpublished] at published
  · simp [alive] at dead
  · omega

theorem batchSettled_iff_unbroken_undisturbed : ∃ claimed w w',
    CompleteCall Sample.Batches.platform "slow" claimed w w' ∧
      (claimed.workers "slow").hands.length = 2 ∧ Unbroken "slow" w ∧
      BatchSettled Sample.Batches.platform "slow" claimed w' := by
  obtain ⟨claimed, w, w', call, passed⟩ := @sample_call Sample.Batches.undisturbed
    (fun claimed w _ => decide ((claimed.workers "slow").hands.length = 2 ∧
      ∃ m ∈ (w.workers "slow").hands.head?, (w.store.outbox.find? m.id).any fun row =>
        row.lockedBy = some "slow"))
    (by simp [Sample.Batches.undisturbed]) (by decide +kernel)
  obtain ⟨two, m, current, leased⟩ := of_decide_eq_true passed
  obtain ⟨row, found, owned⟩ := (Option.any_eq_true _ _).mp leased
  have unbroken : Unbroken "slow" w := by
    intro message delivery batch acknowledging
    rw [acknowledging] at current
    obtain rfl : message = m := Option.some.inj current
    exact .inl ⟨row, found, .inl (of_decide_eq_true owned)⟩
  exact ⟨claimed, w, w', call, two, unbroken, (batchSettled_iff_unbroken call).mpr unbroken⟩

end SupplierAssurance.World
