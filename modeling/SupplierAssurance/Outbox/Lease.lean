import SupplierAssurance.Outbox.Delivery

/-! # Leases

A lease is the name of a worker in `locked_by` and nothing else: no token says which claim
it came from.  `HoldsClaim` reads off the log of claims and effective acknowledgements
whether the latest claim of a worker still stands, and the invariant below says that
`locked_by` names exactly that worker.
-/

namespace SupplierAssurance

open Python

def LeaseEvent.messageId : LeaseEvent → UUID
  | .claimed _ id | .failed _ id | .published _ id => id

/-- An effective failure of the message. -/
def LeaseEvent.isFailureOf (messageId : UUID) : LeaseEvent → Bool
  | .failed _ id => id = messageId
  | .claimed _ _ | .published _ _ => false

end SupplierAssurance

namespace SupplierAssurance.Outbox

open Python Lib Governance SqlAlchemyOutboxRepository

variable {leases : List LeaseEvent} {workerId other : String} {id : UUID} {event : LeaseEvent}

/-! ## The log -/

/-- The latest claim of the message is one by `workerId`, who has not acknowledged it with
    effect since. -/
def HoldsClaim (leases : List LeaseEvent) (workerId : String) (id : UUID) : Prop :=
  ∃ before since, leases = before ++ .claimed workerId id :: since ∧
    (∀ other, .claimed other id ∉ since) ∧ .failed workerId id ∉ since ∧
    .published workerId id ∉ since

/-- The number of effective failures of the message. -/
def failures (leases : List LeaseEvent) (id : UUID) : Nat :=
  leases.countP (LeaseEvent.isFailureOf id)

theorem HoldsClaim.claimed (holds : HoldsClaim leases workerId id) :
    .claimed workerId id ∈ leases := by
  obtain ⟨before, since, rfl, _⟩ := holds
  simp

/-- The log one event longer: either this event is the claim, or the claim stood before and
    the event does not end it. -/
theorem holdsClaim_concat : HoldsClaim (leases ++ [event]) workerId id ↔
    event = .claimed workerId id ∨ (HoldsClaim leases workerId id ∧
      (∀ other, event ≠ .claimed other id) ∧ event ≠ .failed workerId id ∧
      event ≠ .published workerId id) := by
  constructor
  · rintro ⟨before, since, split_, claims, failed, published⟩
    -- the event is the claim itself or the last one behind it
    rcases List.eq_nil_or_concat since with rfl | ⟨front, last, rfl⟩
    · obtain ⟨_, same⟩ := List.append_inj' split_ rfl
      exact .inl (List.singleton_inj.mp same)
    · have regroup : leases ++ [event] = (before ++ .claimed workerId id :: front) ++ [last] := by
        rw [split_]
        simp
      obtain ⟨rfl, same⟩ := List.append_inj' regroup rfl
      cases same
      rw [List.concat_eq_append] at claims failed published
      simp only [List.mem_append, List.mem_singleton, not_or] at claims failed published
      exact .inr ⟨⟨before, front, rfl, fun other => (claims other).1, failed.1, published.1⟩,
        fun other => Ne.symm (claims other).2, Ne.symm failed.2, Ne.symm published.2⟩
  · rintro (rfl | ⟨⟨before, since, rfl, claims, failed, published⟩, noClaim, noFailure,
      noPublication⟩)
    · exact ⟨leases, [], rfl, by simp, by simp, by simp⟩
    · refine ⟨before, since ++ [event], by simp, ?_, ?_, ?_⟩
      · simp [claims, Ne.symm (noClaim _)]
      · simp [failed, noFailure.symm]
      · simp [published, noPublication.symm]

theorem holdsClaim_append_other (elsewhere : event.messageId ≠ id) :
    HoldsClaim (leases ++ [event]) workerId id ↔ HoldsClaim leases workerId id := by
  rw [holdsClaim_concat]
  cases event <;> simp_all [LeaseEvent.messageId]

/-- A claim ends every earlier one. -/
theorem holdsClaim_append_claimed :
    HoldsClaim (leases ++ [.claimed other id]) workerId id ↔ other = workerId := by
  rw [holdsClaim_concat]
  simp

/-- The acknowledgements of one message by one worker. -/
def IsAcknowledgement (event : LeaseEvent) (workerId : String) (id : UUID) : Prop :=
  event = .failed workerId id ∨ event = .published workerId id

/-- An acknowledgement ends the claim of its worker and no other. -/
theorem holdsClaim_append_acknowledged (acknowledged : IsAcknowledgement event other id) :
    HoldsClaim (leases ++ [event]) workerId id ↔
      HoldsClaim leases workerId id ∧ other ≠ workerId := by
  rw [holdsClaim_concat]
  rcases acknowledged with rfl | rfl <;> simp

theorem IsAcknowledgement.messageId (acknowledged : IsAcknowledgement event workerId id) :
    event.messageId = id := by
  rcases acknowledged with rfl | rfl <;> rfl

/-- A batch of claims by one worker. -/
theorem holdsClaim_append_claims (ids : List UUID) :
    HoldsClaim (leases ++ ids.map (.claimed other)) workerId id ↔
      (id ∈ ids ∧ other = workerId) ∨ (id ∉ ids ∧ HoldsClaim leases workerId id) := by
  induction ids generalizing leases with
  | nil => simp
  | cons first rest ih =>
    have regroup : leases ++ (first :: rest).map (.claimed other) =
        (leases ++ [.claimed other first]) ++ rest.map (.claimed other) := by simp
    rw [regroup, ih]
    by_cases here : first = id
    · subst here
      rw [holdsClaim_append_claimed]
      by_cases again : first ∈ rest <;> simp [again]
    · have elsewhere : (LeaseEvent.claimed other first).messageId ≠ id := here
      rw [holdsClaim_append_other elsewhere]
      have there : id ≠ first := fun same => here same.symm
      simp [there]

@[simp] theorem failures_nil : failures [] id = 0 := rfl

theorem failures_append (leases events : List LeaseEvent) :
    failures (leases ++ events) id = failures leases id + failures events id :=
  List.countP_append

theorem failures_claims (ids : List UUID) : failures (ids.map (.claimed other)) id = 0 := by
  simp [failures, LeaseEvent.isFailureOf]

theorem failures_other (elsewhere : event.messageId ≠ id) : failures [event] id = 0 := by
  cases event <;> simp_all [failures, LeaseEvent.isFailureOf, LeaseEvent.messageId]

@[simp] theorem failures_failed : failures [.failed workerId id] id = 1 := by
  simp [failures, LeaseEvent.isFailureOf]

@[simp] theorem failures_published : failures [.published workerId id] id = 0 := by
  simp [failures, LeaseEvent.isFailureOf]

/-! ## The invariant -/

/-- A row of the outbox against the log, with `maxAttempts` attempts for each message. -/
structure RowLeased (maxAttempts : Nat) (leases : List LeaseEvent) (m : OutboxMessage) : Prop where
  holder : ∀ workerId, m.lockedBy = some workerId ↔ HoldsClaim leases workerId m.id
  attempts : m.attemptCount = failures leases m.id
  bounded : m.attemptCount ≤ maxAttempts
  dead : m.attemptCount = maxAttempts ↔ m.deadLetteredAt.isSome
  exclusive : ¬ (m.publishedAt.isSome ∧ m.deadLetteredAt.isSome)
  released : m.publishedAt.isSome ∨ m.deadLetteredAt.isSome → m.lockedBy = none

structure Leased (maxAttempts : Nat) (rows : List OutboxMessage) (leases : List LeaseEvent) :
    Prop where
  each : ∀ m ∈ rows, RowLeased maxAttempts leases m
  known : ∀ e ∈ leases, ∃ m ∈ rows, m.id = e.messageId

section Rows

variable {maxAttempts : Nat} {m : OutboxMessage}

/-- A leased message is neither published nor dead. -/
theorem RowLeased.active (leased : RowLeased maxAttempts leases m) (owned : m.lockedBy = some workerId) :
    m.publishedAt = none ∧ m.deadLetteredAt = none := by
  constructor
  · by_contra published
    have unlocked := leased.released (.inl (Option.isSome_iff_ne_none.mpr published))
    rw [unlocked] at owned
    cases owned
  · by_contra dead
    have unlocked := leased.released (.inr (Option.isSome_iff_ne_none.mpr dead))
    rw [unlocked] at owned
    cases owned

theorem RowLeased.untouched (leased : RowLeased maxAttempts leases m)
    (elsewhere : event.messageId ≠ m.id) : RowLeased maxAttempts (leases ++ [event]) m := by
  refine ⟨?_, ?_, leased.bounded, leased.dead, leased.exclusive, leased.released⟩
  · intro workerId
    rw [holdsClaim_append_other elsewhere]
    exact leased.holder workerId
  · rw [failures_append, failures_other elsewhere]
    exact leased.attempts

theorem RowLeased.skipped {ids : List UUID} (leased : RowLeased maxAttempts leases m)
    (skipped : m.id ∉ ids) :
    RowLeased maxAttempts (leases ++ ids.map (.claimed other)) m := by
  refine ⟨?_, ?_, leased.bounded, leased.dead, leased.exclusive, leased.released⟩
  · intro workerId
    rw [holdsClaim_append_claims, leased.holder]
    simp [skipped]
  · rw [failures_append, failures_claims]
    exact leased.attempts

theorem RowLeased.lease {ids : List UUID} {now : Datetime} (leased : RowLeased maxAttempts leases m)
    (chosen : m.id ∈ ids) (unpublished : m.publishedAt = none) (alive : m.deadLetteredAt = none) :
    RowLeased maxAttempts (leases ++ ids.map (.claimed other)) (lease other now m) := by
  refine ⟨?_, ?_, leased.bounded, leased.dead, leased.exclusive, ?_⟩
  · intro workerId
    rw [holdsClaim_append_claims]
    simp [SqlAlchemyOutboxRepository.lease, chosen]
  · rw [failures_append, failures_claims]
    exact leased.attempts
  · simp [SqlAlchemyOutboxRepository.lease, unpublished, alive]

/-- After an effective acknowledgement nobody holds the message. -/
theorem RowLeased.nobody (leased : RowLeased maxAttempts leases m)
    (owned : m.lockedBy = some other) (acknowledged : IsAcknowledgement event other m.id)
    (workerId : String) : ¬ HoldsClaim (leases ++ [event]) workerId m.id := by
  rw [holdsClaim_append_acknowledged acknowledged, ← leased.holder workerId, owned]
  rintro ⟨same, differ⟩
  exact differ (Option.some.inj same)

theorem RowLeased.publish {result : List (String × String)} {now : Datetime}
    (leased : RowLeased maxAttempts leases m) (owned : m.lockedBy = some other) :
    RowLeased maxAttempts (leases ++ [.published other m.id]) (assignPublished result now m) := by
  obtain ⟨_, alive⟩ := leased.active owned
  refine ⟨?_, ?_, leased.bounded, leased.dead, ?_, fun _ => rfl⟩
  · intro workerId
    exact iff_of_false (by simp [assignPublished]) (leased.nobody owned (.inr rfl) workerId)
  · show m.attemptCount = failures _ m.id
    rw [failures_append, failures_published]
    exact leased.attempts
  · simp [assignPublished, alive]

theorem RowLeased.fail {errorType : String} {retryAt now : Datetime}
    (leased : RowLeased maxAttempts leases m) (owned : m.lockedBy = some other) :
    RowLeased maxAttempts (leases ++ [.failed other m.id])
      (assignFailure errorType retryAt maxAttempts now m) := by
  obtain ⟨unpublished, alive⟩ := leased.active owned
  have below : m.attemptCount < maxAttempts := by
    have notLast : m.attemptCount ≠ maxAttempts := by
      rw [Ne, leased.dead, alive]
      simp
    have bounded := leased.bounded
    omega
  have nobody := leased.nobody owned (.inl rfl)
  have counted : m.attemptCount + 1 = failures (leases ++ [.failed other m.id]) m.id := by
    rw [failures_append, failures_failed, leased.attempts]
  unfold assignFailure
  by_cases last : m.attemptCount + 1 ≥ maxAttempts
  · rw [if_pos last]
    refine ⟨fun workerId => iff_of_false (by simp) (nobody workerId), counted, ?_, ?_, ?_,
      fun _ => rfl⟩
    · show m.attemptCount + 1 ≤ maxAttempts
      omega
    · show m.attemptCount + 1 = maxAttempts ↔ _
      simp only [Option.isSome_some, iff_true]
      omega
    · simp [unpublished]
  · rw [if_neg last]
    refine ⟨fun workerId => iff_of_false (by simp) (nobody workerId), counted, ?_, ?_, ?_,
      fun _ => rfl⟩
    · show m.attemptCount + 1 ≤ maxAttempts
      omega
    · show m.attemptCount + 1 = maxAttempts ↔ m.deadLetteredAt.isSome
      rw [alive]
      simp only [Option.isSome_none, Bool.false_eq_true, iff_false]
      omega
    · simp [unpublished]

/-- A message that no event is about yet. -/
theorem RowLeased.fresh {message : OutboxMessageCreate} {now : Datetime} (positive : 1 ≤ maxAttempts)
    (unknown : ∀ e ∈ leases, e.messageId ≠ id) :
    RowLeased maxAttempts leases (SqlAlchemyActionRepository.outboxRecord message id now) := by
  refine ⟨?_, ?_, Nat.zero_le _, ?_, ?_, fun _ => rfl⟩
  · intro workerId
    refine iff_of_false (by simp [SqlAlchemyActionRepository.outboxRecord]) ?_
    intro holds
    exact unknown _ holds.claimed rfl
  · show 0 = failures leases id
    symm
    rw [failures, List.countP_eq_zero]
    intro e member
    have elsewhere := unknown e member
    cases e <;> simp_all [LeaseEvent.isFailureOf, LeaseEvent.messageId]
  · show 0 = maxAttempts ↔ _
    simp only [SqlAlchemyActionRepository.outboxRecord, Option.isSome_none, Bool.false_eq_true,
      iff_false]
    omega
  · simp [SqlAlchemyActionRepository.outboxRecord]

end Rows

section Steps

variable {maxAttempts : Nat} {rows : List OutboxMessage} {db : Store}

theorem Leased.insert {message : OutboxMessageCreate} {now : Datetime}
    (leased : Leased maxAttempts rows leases) (positive : 1 ≤ maxAttempts)
    (fresh : ∀ old ∈ rows, old.id ≠ id) :
    Leased maxAttempts (rows ++ [SqlAlchemyActionRepository.outboxRecord message id now]) leases := by
  have unknown : ∀ e ∈ leases, e.messageId ≠ id := by
    intro e member same
    obtain ⟨m, mMember, mSame⟩ := leased.known e member
    exact fresh m mMember (mSame.trans same)
  constructor
  · intro m member
    rcases List.mem_append.mp member with old | new
    · exact leased.each m old
    · rw [List.mem_singleton.mp new]
      exact .fresh positive unknown
  · intro e member
    obtain ⟨m, mMember, same⟩ := leased.known e member
    exact ⟨m, List.mem_append_left _ mMember, same⟩

theorem mem_selectBatch {batchSize : Nat} {lockTimeout : Timedelta} {now : Datetime} {scan : Scan}
    {m : OutboxMessage} (chosen : m ∈ selectBatch db batchSize lockTimeout now scan) :
    m ∈ db.outbox.rows ∧ claimable now lockTimeout m = true := by
  have sorted := List.mem_of_mem_take chosen
  rw [List.mem_insertionSort, List.mem_filter] at sorted
  simp only [Bool.and_eq_true] at sorted
  exact ⟨sorted.1, sorted.2.1⟩

theorem claimable_active {lockTimeout : Timedelta} {now : Datetime} {m : OutboxMessage}
    (eligible : claimable now lockTimeout m = true) :
    m.publishedAt = none ∧ m.deadLetteredAt = none := by
  simp only [claimable, Bool.and_eq_true, Option.isNone_iff_eq_none] at eligible
  exact ⟨eligible.1.1.1, eligible.1.1.2⟩

theorem Leased.claim {chosen : List OutboxMessage} {now : Datetime}
    (leased : Leased maxAttempts db.outbox.rows leases)
    (selected : ∀ m ∈ chosen, m ∈ db.outbox.rows ∧ m.publishedAt = none ∧ m.deadLetteredAt = none) :
    Leased maxAttempts (leaseAll db workerId now (chosen.map (·.id))).outbox.rows
      (leases ++ chosen.map fun m => .claimed workerId m.id) := by
  have events : (chosen.map fun m => LeaseEvent.claimed workerId m.id) =
      (chosen.map (·.id)).map (.claimed workerId) := by simp
  rw [leaseAll_rows, events]
  constructor
  · intro m' member
    obtain ⟨m, old, rfl⟩ := List.mem_map.mp member
    by_cases here : m.id ∈ chosen.map (·.id)
    · obtain ⟨n, nChosen, same⟩ := List.mem_map.mp here
      obtain ⟨nMember, unpublished, alive⟩ := selected n nChosen
      have isChosen : n = m := Table.eq_of_pk nMember old same
      subst isChosen
      rw [if_pos here]
      exact (leased.each n old).lease here unpublished alive
    · rw [if_neg here]
      exact (leased.each m old).skipped here
  · intro e member
    have found : ∃ m ∈ db.outbox.rows, m.id = e.messageId := by
      rcases List.mem_append.mp member with old | new
      · exact leased.known e old
      · obtain ⟨id, idMember, rfl⟩ := List.mem_map.mp new
        obtain ⟨m, mChosen, rfl⟩ := List.mem_map.mp idMember
        exact ⟨m, (selected m mChosen).1, rfl⟩
    obtain ⟨m, mMember, same⟩ := found
    refine ⟨_, List.mem_map_of_mem mMember, ?_⟩
    split <;> exact same

/-- An update of the one row that `event` is about. -/
theorem Leased.update {f : OutboxMessage → OutboxMessage} {record : OutboxMessage}
    (leased : Leased maxAttempts db.outbox.rows leases) (found : record ∈ db.outbox.rows)
    (sameId : record.id = id) (about : event.messageId = id) (keepsId : ∀ m, (f m).id = m.id)
    (updated : RowLeased maxAttempts (leases ++ [event]) (f record)) :
    Leased maxAttempts (db.outbox.rows.map fun m => if m.id = id then f m else m)
      (leases ++ [event]) := by
  constructor
  · intro m' member
    obtain ⟨m, old, rfl⟩ := List.mem_map.mp member
    by_cases here : m.id = id
    · rw [if_pos here, Table.eq_of_pk old found (here.trans sameId.symm)]
      exact updated
    · rw [if_neg here]
      apply (leased.each m old).untouched
      rw [about]
      exact fun same => here same.symm
  · intro e member
    have known : ∃ m ∈ db.outbox.rows, m.id = e.messageId := by
      rcases List.mem_append.mp member with old | new
      · exact leased.known e old
      · rw [List.mem_singleton.mp new, about]
        exact ⟨record, found, sameId⟩
    obtain ⟨m, mMember, same⟩ := known
    refine ⟨_, List.mem_map_of_mem mMember, ?_⟩
    split
    · exact (keepsId m).trans same
    · exact same

end Steps

/-! ## What an effective acknowledgement records -/

section Events

variable {db : Store} {record : OutboxMessage} {now : Datetime}

theorem ackEvents_unchanged (delivery : Except String (List (String × String))) :
    World.ackEvents db db workerId id delivery = [] := by
  simp [World.ackEvents]

theorem find?_publish {result : List (String × String)} {actionId : UUID} {reference : String}
    (found : db.outbox.find? id = some record) :
    (publish db id actionId reference result now).outbox.find? id =
      some (assignPublished result now record) := by
  have here : record.id = id := (Table.find?_eq_some.mp found).2
  simp [publish, Table.find?_updateWhere, found, here]

theorem find?_fail {errorType : String} {retryAt : Datetime} {maxAttempts : Nat}
    (found : db.outbox.find? id = some record) :
    (fail db id errorType retryAt maxAttempts now).outbox.find? id =
      some (assignFailure errorType retryAt maxAttempts now record) := by
  have here : record.id = id := (Table.find?_eq_some.mp found).2
  simp [fail, Table.find?_updateWhere, found, here]

theorem assignPublished_ne {result : List (String × String)} (unpublished : record.publishedAt = none) :
    assignPublished result now record ≠ record := by
  intro same
  have published := congrArg OutboxMessage.publishedAt same
  rw [unpublished] at published
  cases published

theorem assignFailure_attemptCount (errorType : String) (retryAt : Datetime) (maxAttempts : Nat)
    (now : Datetime) (record : OutboxMessage) :
    (assignFailure errorType retryAt maxAttempts now record).attemptCount =
      record.attemptCount + 1 := by
  unfold assignFailure
  split <;> rfl

theorem assignFailure_ne {errorType : String} {retryAt : Datetime} {maxAttempts : Nat} :
    assignFailure errorType retryAt maxAttempts now record ≠ record := by
  intro same
  have counted := assignFailure_attemptCount errorType retryAt maxAttempts now record
  rw [same] at counted
  omega

theorem ackEvents_published {result : List (String × String)} {actionId : UUID} {reference : String}
    (found : db.outbox.find? id = some record) (unpublished : record.publishedAt = none) :
    World.ackEvents db (publish db id actionId reference result now) workerId id (.ok result) =
      [.published workerId id] := by
  simp [World.ackEvents, find?_publish found, found, assignPublished_ne unpublished]

theorem ackEvents_failed {errorType : String} {retryAt : Datetime} {maxAttempts : Nat}
    (found : db.outbox.find? id = some record) :
    World.ackEvents db (fail db id errorType retryAt maxAttempts now) workerId id
      (.error errorType) = [.failed workerId id] := by
  simp [World.ackEvents, find?_fail found, found, assignFailure_ne]

end Events

/-! ## Messages in the hands of a worker -/

def Worker.hands : Worker → List OutboxMessage
  | .idle _ => []
  | .loading message batch | .starting message _ batch | .acknowledging message _ batch =>
    message :: batch.rest

@[simp] theorem Worker.hands_next (batch : Batch) : (Worker.next batch).hands = batch.rest := by
  cases rest : batch.rest <;> simp [Worker.next, rest, Worker.hands]

@[simp] theorem Worker.hands_load (db : Store) (message : OutboxMessage) (batch : Batch) :
    (Worker.load db message batch).hands = message :: batch.rest := by
  unfold Worker.load
  split <;> rfl

@[simp] theorem Worker.hands_started (message : OutboxMessage) (batch : Batch)
    (answer : Except String String) :
    (Worker.started message batch answer).hands = message :: batch.rest := by
  cases answer <;> rfl

/-- An acknowledgement leaves the rest of the batch, or drops it. -/
theorem Worker.hands_acknowledge {config : DispatcherConfig} {db db' : Store} {message : OutboxMessage}
    {delivery : Except String (List (String × String))} {batch : Batch} {worker : Worker}
    (done : Worker.acknowledge workerId config db message delivery batch = (db', worker)) :
    worker.hands ⊆ batch.rest := by
  cases delivery with
  | ok result =>
    simp only [Worker.acknowledge] at done
    split at done <;> cases done
    · exact List.nil_subset _
    · simp
  | error errorType =>
    simp only [Worker.acknowledge] at done
    split at done <;> cases done
    · exact List.nil_subset _
    · simp
    · simp

/-- An acknowledgement that raises is rolled back. -/
theorem Worker.acknowledge_raises {config : DispatcherConfig} {db db' : Store} {message : OutboxMessage}
    {delivery : Except String (List (String × String))} {batch : Batch} {e : OutboxError}
    (raised : Worker.acknowledge workerId config db message delivery batch =
      (db', .idle (some (.error e)))) : db' = db := by
  have returns : ∀ b : Batch, Worker.next b ≠ .idle (some (.error e)) := by
    intro b
    unfold Worker.next
    split <;> simp
  cases delivery with
  | ok result =>
    simp only [Worker.acknowledge] at raised
    split at raised
    · cases raised
      rfl
    · exact absurd (congrArg Prod.snd raised) (returns _)
  | error errorType =>
    simp only [Worker.acknowledge] at raised
    split at raised
    · cases raised
      rfl
    · exact absurd (congrArg Prod.snd raised) (returns _)
    · exact absurd (congrArg Prod.snd raised) (returns _)

/-- With the lease in hand, an acknowledgement takes effect. -/
theorem Worker.acknowledge_effective {config : DispatcherConfig} {db : Store}
    {message record : OutboxMessage} {delivery : Except String (List (String × String))}
    {batch : Batch} (delivers : Delivers db.actions.rows db.outbox.rows)
    (found : db.outbox.find? message.id = some record) (owned : record.lockedBy = some workerId)
    (unpublished : record.publishedAt = none)
    (deliverable : ∀ result, delivery = .ok result → Deliverable result) :
    (Worker.acknowledge workerId config db message delivery batch).1.outbox.find? message.id ≠
      db.outbox.find? message.id := by
  have lease : requireLease record workerId = .ok () := by simp [requireLease, owned]
  cases delivery with
  | ok result =>
    obtain ⟨reference, delivered, fits⟩ := deliverable result rfl
    have member := (Table.find?_eq_some.mp found).1
    have starts := delivers.starts record member
    obtain ⟨action, actionMember, about⟩ := delivers.hasAction record member
    have loaded : db.actions.find? record.payload.actionId = some action :=
      Table.find?_eq_some.mpr ⟨actionMember, about.trans starts.payload.symm⟩
    have committed : markPublished db message.id workerId result batch.now =
        .ok (publish db message.id record.payload.actionId reference result batch.now) := by
      simp [markPublished, found, unpublished, lease, starts.eventType, delivered, loaded, fits]
    simp only [Worker.acknowledge, committed]
    rw [find?_publish found, found]
    exact fun same => assignPublished_ne unpublished (Option.some.inj same)
  | error errorType =>
    have failed : ∀ retryAt maxAttempts now,
        (fail db message.id errorType retryAt maxAttempts now).outbox.find? message.id ≠
          some record := by
      intro retryAt maxAttempts now
      rw [find?_fail found]
      exact fun same => assignFailure_ne (Option.some.inj same)
    simp only [Worker.acknowledge, recordFailure, found, lease]
    split
    next impossible => cases impossible
    next committed =>
      obtain ⟨rfl, _⟩ := Prod.mk.inj (Except.ok.inj committed)
      exact failed _ _ _
    next committed =>
      obtain ⟨rfl, _⟩ := Prod.mk.inj (Except.ok.inj committed)
      exact failed _ _ _

end SupplierAssurance.Outbox

namespace SupplierAssurance.World

open Python Lib Governance Outbox SqlAlchemyOutboxRepository

variable {σ ε ω φ : Type} {platform : Platform σ ε ω φ} {w w' : World σ ω} {label : Label ε φ}
  {maxAttempts : Nat}

/-! ## Runs -/

/-- All workers run with one bound on the attempts. -/
def CommonLimit (platform : Platform σ ε ω φ) (maxAttempts : Nat) : Prop :=
  1 ≤ maxAttempts ∧ ∀ workerId, (platform.config workerId).maxAttempts = maxAttempts

structure Leasing (maxAttempts : Nat) (w : World σ ω) : Prop where
  leased : Leased maxAttempts w.store.outbox.rows w.leases
  claimed : ∀ workerId, ∀ m ∈ (w.workers workerId).hands, .claimed workerId m.id ∈ w.leases

/-- One worker moves on with fewer messages, the log grows. -/
theorem claimed_setWorker {workers : String → Worker} {leases new : List LeaseEvent}
    {workerId : String} {worker : Worker}
    (claimed : ∀ workerId, ∀ m ∈ (workers workerId).hands, .claimed workerId m.id ∈ leases)
    (hands : ∀ m ∈ worker.hands, .claimed workerId m.id ∈ leases ++ new) :
    ∀ other, ∀ m ∈ (Function.update workers workerId worker other).hands,
      .claimed other m.id ∈ leases ++ new := by
  intro other m member
  by_cases same : other = workerId
  · subst same
    rw [Function.update_self] at member
    exact hands m member
  · rw [Function.update_of_ne same] at member
    exact List.mem_append_left _ (claimed other m member)

/-- What a governance step does to the outbox. -/
inductive AdvancedMessages (db db' : Store) : Prop
  | same : db'.outbox.rows = db.outbox.rows → AdvancedMessages db db'
  | inserted {message : OutboxMessageCreate} {id : UUID} {now : Datetime} :
      db'.outbox.rows = db.outbox.rows ++
        [SqlAlchemyActionRepository.outboxRecord message id now] →
      (∀ old ∈ db.outbox.rows, old.id ≠ id) → AdvancedMessages db db'

theorem advance_messages {system : SupplierSystem σ ε} {db : Store} {supplier : σ} {ambient : Ambient}
    {input : ε} {call : Call} {p : Progress σ}
    (advances : Advances system db supplier ambient input call p) : AdvancedMessages db p.store := by
  cases advances with
  | reads | applies | applyRaises => exact .same rfl
  | inserts committed =>
    obtain ⟨_, _, _, _, rows, _, _, fresh⟩ :=
      SqlAlchemyActionRepository.insertProposal_some committed
    exact .inserted rows fresh
  | decides committed | executes committed =>
    obtain ⟨record, audit, _, _, _, _, rfl⟩ :=
      SqlAlchemyActionRepository.saveTransition_ok committed
    exact .same rfl

theorem leased_advance {system : SupplierSystem σ ε} {db : Store} {supplier : σ} {ambient : Ambient}
    {input : ε} {call : Call} {p : Progress σ} {leases : List LeaseEvent}
    (leased : Leased maxAttempts db.outbox.rows leases) (positive : 1 ≤ maxAttempts)
    (advances : Advances system db supplier ambient input call p) :
    Leased maxAttempts p.store.outbox.rows leases := by
  cases advance_messages advances with
  | same rows =>
    rw [rows]
    exact leased
  | inserted rows fresh =>
    rw [rows]
    exact leased.insert positive fresh

theorem leased_acknowledge {workerId : String} {config : DispatcherConfig} {db db' : Store}
    {message : OutboxMessage} {delivery : Except String (List (String × String))} {batch : Batch}
    {leases : List LeaseEvent} (leased : Leased maxAttempts db.outbox.rows leases)
    (limit : config.maxAttempts = maxAttempts)
    (acknowledged : Acknowledged workerId config db message delivery batch db') :
    Leased maxAttempts db'.outbox.rows
      (leases ++ ackEvents db db' workerId message.id delivery) := by
  cases acknowledged with
  | unchanged =>
    rw [ackEvents_unchanged, List.append_nil]
    exact leased
  | published returned found same unpublished owned =>
    subst returned
    rw [ackEvents_published (Table.find?_eq_some.mpr ⟨found, same⟩) unpublished, publish_rows]
    refine leased.update found same rfl (fun _ => rfl) ?_
    rw [← same]
    exact (leased.each _ found).publish owned
  | @failed _ errorType returned found same owned =>
    subst returned
    rw [ackEvents_failed (Table.find?_eq_some.mpr ⟨found, same⟩), fail_rows, limit]
    refine leased.update found same rfl (fun m => (assignFailure_keepsKeys _ _ _ _ m).1) ?_
    rw [← same]
    exact (leased.each _ found).fail owned

theorem leasing_step (limit : CommonLimit platform maxAttempts) (leasing : w.Leasing maxAttempts)
    (moved : step platform w label = some w') : w'.Leasing maxAttempts := by
  -- a worker that claims nothing has in its hands what it claimed before
  have grow : ∀ {workerId : String} {worker : Worker},
      (∀ m ∈ worker.hands, .claimed workerId m.id ∈ w.leases) →
      ∀ other, ∀ m ∈ (Function.update w.workers workerId worker other).hands,
        .claimed other m.id ∈ w.leases := by
    intro workerId worker hands
    simpa using @claimed_setWorker _ _ [] _ _ leasing.claimed (by simpa using hands)
  cases step_moves moved with
  | submit | storeCase | storeReview => exact ⟨leasing.leased, leasing.claimed⟩
  | advance _ advances => exact ⟨leased_advance leasing.leased limit.1 advances, leasing.claimed⟩
  | @claim workerId now scan last chosen idle selected =>
    constructor
    · apply leasing.leased.claim
      intro m member
      rw [selected] at member
      obtain ⟨inRows, eligible⟩ := mem_selectBatch member
      exact ⟨inRows, claimable_active eligible⟩
    · refine claimed_setWorker leasing.claimed ?_
      intro m member
      rw [Worker.hands_next] at member
      obtain ⟨n, nChosen, rfl⟩ := List.mem_map.mp member
      exact List.mem_append_right _ (List.mem_map.mpr ⟨n, nChosen, rfl⟩)
  | @load workerId message batch loading =>
    refine ⟨leasing.leased, grow ?_⟩
    intro m member
    rw [Worker.hands_load] at member
    apply leasing.claimed workerId
    rw [loading]
    exact member
  | @start workerId _ message _ batch _ answer starting =>
    refine ⟨leasing.leased, grow ?_⟩
    intro m member
    rw [Worker.hands_started] at member
    apply leasing.claimed workerId
    rw [starting]
    exact member
  | @acknowledge workerId message batch _ _ _ acknowledging done acknowledged =>
    refine ⟨leased_acknowledge leasing.leased (limit.2 workerId) acknowledged, ?_⟩
    refine claimed_setWorker leasing.claimed ?_
    intro m member
    refine List.mem_append_left _ (leasing.claimed workerId m ?_)
    rw [acknowledging]
    exact List.mem_cons_of_mem _ (Worker.hands_acknowledge done member)
  | crash workerId =>
    refine ⟨leasing.leased, grow ?_⟩
    intro m member
    cases member

theorem leasing_inductive (limit : CommonLimit platform maxAttempts) :
    Inductive platform (Leasing maxAttempts) where
  initial _ _ _ _ := by
    refine ⟨⟨?_, ?_⟩, ?_⟩ <;> simp [World.initial, Store.empty, Worker.hands]
  keep := leasing_step limit

/-! ## Terminal messages -/

/-- A message that is published or dead stays as it is. -/
def KeepsTerminal (w w' : World σ ω) : Prop :=
  ∀ m ∈ w.store.outbox.rows, m.publishedAt.isSome ∨ m.deadLetteredAt.isSome →
    m ∈ w'.store.outbox.rows

/-- An update of the outbox that is about another row. -/
theorem mem_map_of_ne {rows : List OutboxMessage} {f : OutboxMessage → OutboxMessage}
    {p : OutboxMessage → Prop} [DecidablePred p] {m : OutboxMessage} (member : m ∈ rows)
    (elsewhere : ¬ p m) : m ∈ rows.map fun m => if p m then f m else m :=
  List.mem_map.mpr ⟨m, member, if_neg elsewhere⟩

/-- A governance step changes no message. -/
theorem advance_keeps_messages {system : SupplierSystem σ ε} {db : Store} {supplier : σ}
    {ambient : Ambient} {input : ε} {call : Call} {p : Progress σ}
    (advances : Advances system db supplier ambient input call p) :
    db.outbox.rows ⊆ p.store.outbox.rows := by
  cases advance_messages advances with
  | same rows =>
    rw [rows]
    exact List.Subset.refl _
  | inserted rows _ =>
    rw [rows]
    exact List.subset_append_left _ _

theorem keepsTerminal_step (leasing : w.Leasing maxAttempts)
    (moved : step platform w label = some w') : KeepsTerminal w w' := by
  intro m member terminal
  have unlocked := (leasing.leased.each m member).released terminal
  have notOwned : ∀ {record : OutboxMessage} {workerId : String} {id : UUID},
      record ∈ w.store.outbox.rows → record.id = id → record.lockedBy = some workerId → m.id ≠ id := by
    intro record workerId id found same owned here
    rw [← Table.eq_of_pk member found (here.trans same.symm), unlocked] at owned
    cases owned
  cases step_moves moved with
  | advance _ advances => exact advance_keeps_messages advances member
  | claim _ selected =>
    show m ∈ (Store.outbox _).rows
    rw [leaseAll_rows]
    apply mem_map_of_ne member
    intro chosen
    obtain ⟨n, nChosen, same⟩ := List.mem_map.mp chosen
    rw [selected] at nChosen
    obtain ⟨nMember, eligible⟩ := mem_selectBatch nChosen
    obtain ⟨unpublished, alive⟩ := claimable_active eligible
    rw [← Table.eq_of_pk nMember member same, unpublished, alive] at terminal
    simp at terminal
  | acknowledge _ _ acknowledged =>
    cases acknowledged with
    | unchanged => exact member
    | published _ found same _ owned =>
      show m ∈ (Store.outbox _).rows
      rw [publish_rows]
      exact mem_map_of_ne member (notOwned found same owned)
    | failed _ found same owned =>
      show m ∈ (Store.outbox _).rows
      rw [fail_rows]
      exact mem_map_of_ne member (notOwned found same owned)
  | submit | load | start | crash | storeCase | storeReview => exact member

theorem keepsTerminal_steps (limit : CommonLimit platform maxAttempts)
    (leasing : w.Leasing maxAttempts) (steps : Steps (step platform) w w') : KeepsTerminal w w' := by
  apply steps.related leasing
  · intro _ _ _ holds _ moved
    exact leasing_step limit holds moved
  · intro w m member _
    exact member
  · intro w₁ w₂ w₃ first second m member terminal
    exact second m (first m member terminal) terminal
  · intro _ _ _ holds _ moved
    exact keepsTerminal_step holds moved

/-! ## Lease safety -/

structure LeaseSafe (platform : Platform σ ε ω φ) (maxAttempts : Nat) (w : World σ ω) : Prop where
  /-- A worker acknowledges only what it has claimed. -/
  claimed : ∀ workerId message delivery batch,
    w.workers workerId = .acknowledging message delivery batch →
    .claimed workerId message.id ∈ w.leases
  /-- The acknowledgement changes the message just when that claim stands. -/
  effective : ∀ workerId message delivery batch w',
    w.workers workerId = .acknowledging message delivery batch →
    (∀ result, delivery = .ok result → ∃ reference, workflowReference result = some reference) →
    step platform w (.acknowledge workerId) = some w' →
    (w'.store.outbox.find? message.id ≠ w.store.outbox.find? message.id ↔
      HoldsClaim w.leases workerId message.id)
  exclusive : ∀ m ∈ w.store.outbox.rows, ¬ (m.publishedAt.isSome ∧ m.deadLetteredAt.isSome)
  terminal : ∀ w', Steps (step platform) w w' → ∀ m ∈ w.store.outbox.rows,
    m.publishedAt.isSome ∨ m.deadLetteredAt.isSome → m ∈ w'.store.outbox.rows
  reference : ∀ w', Steps (step platform) w w' → ∀ m ∈ w.store.outbox.rows, m.publishedAt.isSome →
    ∀ a ∈ w.store.actions.rows, a.id = m.aggregateId →
    ∃ a' ∈ w'.store.actions.rows, a'.id = a.id ∧ a'.workflowExecutionArn = a.workflowExecutionArn
  attempts : ∀ m ∈ w.store.outbox.rows, m.attemptCount = failures w.leases m.id ∧
    m.attemptCount ≤ maxAttempts ∧ (m.attemptCount = maxAttempts ↔ m.deadLetteredAt.isSome)
  raises : ∀ workerId w' e, step platform w (.acknowledge workerId) = some w' →
    w'.workers workerId = .idle (some (.error e)) → w'.store = w.store

/-- The row behind a standing claim. -/
theorem held_record (leasing : w.Leasing maxAttempts) {workerId : String} {id : UUID}
    (holds : HoldsClaim w.leases workerId id) :
    ∃ record, w.store.outbox.find? id = some record ∧ record.lockedBy = some workerId ∧
      record.publishedAt = none := by
  obtain ⟨record, member, same⟩ := leasing.leased.known _ holds.claimed
  have row := leasing.leased.each record member
  have owned : record.lockedBy = some workerId := by
    rw [row.holder, same]
    exact holds
  exact ⟨record, Table.find?_eq_some.mpr ⟨member, same⟩, owned, (row.active owned).1⟩

theorem reachable_leaseSafe (limit : CommonLimit platform maxAttempts)
    (reachable : Reachable platform w) : LeaseSafe platform maxAttempts w := by
  have leasing : w.Leasing maxAttempts := reachable.invariant (leasing_inductive limit)
  have delivering : w.Delivering := reachable.invariant delivering_inductive
  have fits : w.Referenced := reachable.invariant referenced_inductive
  refine ⟨?_, ?_, ?_, ?_, ?_, ?_, ?_⟩
  · intro workerId message delivery batch acknowledging
    apply leasing.claimed workerId
    rw [acknowledging]
    exact List.mem_cons_self
  · intro workerId message delivery batch w' acknowledging referenced moved
    cases step_moves moved with
    | acknowledge acknowledging' done acknowledged =>
      cases acknowledging.symm.trans acknowledging'
      constructor
      · intro changed
        cases acknowledged with
        | unchanged => exact absurd rfl changed
        | published _ found same _ owned | failed _ found same owned =>
          rw [← same, ← (leasing.leased.each _ found).holder]
          exact owned
      · intro holds
        obtain ⟨record, found, owned, unpublished⟩ := held_record leasing holds
        have deliverable : ∀ result, delivery = .ok result → Deliverable result := by
          rintro result rfl
          have referenced' := fits workerId
          rw [acknowledging] at referenced'
          exact referenced'.deliverable (Option.isSome_iff_exists.mpr (referenced result rfl))
        have effect : (Worker.acknowledge workerId (platform.config workerId) w.store message
            delivery batch).1.outbox.find? message.id ≠ w.store.outbox.find? message.id :=
          Worker.acknowledge_effective delivering.delivers found owned unpublished deliverable
        rw [done] at effect
        exact effect
  · intro m member
    exact (leasing.leased.each m member).exclusive
  · intro w' steps
    exact keepsTerminal_steps limit leasing steps
  · -- a published message has set the reference of its action, and nothing clears it
    intro w' steps m member published a aMember about
    refine keepsReferences_steps delivering steps a aMember ?_
    cases delivering.delivers.paired a aMember m member about.symm with
    | pending unpublished _ =>
      rw [unpublished] at published
      cases published
    | published _ set _ => simp [set]
  · intro m member
    have row := leasing.leased.each m member
    exact ⟨row.attempts, row.bounded, row.dead⟩
  · intro workerId w' e moved raised
    cases step_moves moved with
    | @acknowledge _ _ _ _ db' worker _ done _ =>
      have stopped : worker = .idle (some (.error e)) := by simpa [setWorker] using raised
      subst stopped
      exact Worker.acknowledge_raises done

/-- Two workers that have claimed the same message, the first one too slow. -/
theorem reachable_leaseSafe_reclaimed :
    ∃ w, Reachable Sample.platform w ∧
      w.leases = [.claimed "first" ⟨3⟩, .claimed "second" ⟨3⟩] ∧ LeaseSafe Sample.platform 2 w := by
  have limit : CommonLimit Sample.platform 2 := ⟨by decide, fun _ => rfl⟩
  have replayed : ((run (step Sample.platform)
      (initial [⟨0xa⟩, ⟨0xb⟩] [⟨0x1a⟩, ⟨0x1b⟩] [] ())
      ((Sample.fullLife 0 Sample.proposalA Sample.approverA).take 3 ++
        (Sample.deliver "first" 10).take 3 ++ (Sample.deliver "second" 130000000).take 1)).map
      fun w => decide (w.leases = [.claimed "first" ⟨3⟩, .claimed "second" ⟨3⟩])) = some true := by
    decide +kernel
  obtain ⟨w, reachable, leases⟩ := reachable_of_run replayed
  exact ⟨w, reachable, of_decide_eq_true leases, reachable_leaseSafe limit reachable⟩

end SupplierAssurance.World
