import SupplierAssurance.Outbox.Batches

/-! # The queue drains

One worker polls after all others have stopped, wherever they stopped and whatever leases they
still hold, while governance calls go on.  Every step of the worker lowers a rank: four times the
attempts that the open messages have left, and where the worker stands between two
acknowledgements.  An acknowledgement costs an attempt or closes a message, and the steps from one
to the next are at most four.  Only a new proposal raises the rank.

A poll that finds nothing lowers nothing, so only polls that find something count.  As long as a
message is open, a poll that is late enough finds something.
-/

namespace SupplierAssurance.Outbox

open Python Lib Governance SqlAlchemyOutboxRepository

/-- Neither published nor dead. -/
def isOpen (m : OutboxMessage) : Bool :=
  m.publishedAt.isNone && m.deadLetteredAt.isNone

/-- The failures that a message can still have. -/
def attemptsLeft (maxAttempts : Nat) (m : OutboxMessage) : Nat :=
  if isOpen m then maxAttempts - m.attemptCount else 0

/-- The steps until the next acknowledgement. -/
def Worker.phase : Worker → Nat
  | .idle _ => 3
  | .loading .. => 2
  | .starting .. => 1
  | .acknowledging .. => 0

def Worker.isIdle : Worker → Bool
  | .idle _ => true
  | _ => false

theorem Worker.isIdle_iff {worker : Worker} : worker.isIdle = true ↔ ∃ last, worker = .idle last := by
  cases worker <;> simp [Worker.isIdle]

theorem Worker.phase_next (batch : Batch) : (Worker.next batch).phase ≤ 3 := by
  unfold Worker.next
  split
  · exact Nat.le_refl 3
  · exact Nat.le_succ 2

theorem Worker.phase_next_cons {batch : Batch} (more : batch.rest ≠ []) : (Worker.next batch).phase = 2 := by
  unfold Worker.next
  split
  next done => exact absurd done more
  next => rfl

theorem Worker.next_ne_acknowledging (batch batch' : Batch) (m : OutboxMessage)
    (delivery : Except String (List (String × String))) :
    Worker.next batch ≠ .acknowledging m delivery batch' := by
  unfold Worker.next
  split <;> nofun

theorem Worker.phase_load (db : Store) (message : OutboxMessage) (batch : Batch) :
    (Worker.load db message batch).phase ≤ 1 := by
  unfold Worker.load
  split
  · exact Nat.zero_le 1
  · exact Nat.le_refl 1

theorem Worker.phase_started (message : OutboxMessage) (batch : Batch) (answer : Except String String) :
    (Worker.started message batch answer).phase = 0 := by
  cases answer <;> rfl

section

variable {maxAttempts : Nat} {m : OutboxMessage} {leases : List LeaseEvent} {db db' : Store}
  {message : OutboxMessage} {workerId : String} {config : DispatcherConfig} {batch : Batch}
  {delivery : Except String (List (String × String))}

theorem isOpen_iff : isOpen m = true ↔ m.publishedAt = none ∧ m.deadLetteredAt = none := by
  simp [isOpen, Option.isNone_iff_eq_none]

/-- An open message has an attempt left. -/
theorem RowLeased.attemptsLeft_pos (leased : RowLeased maxAttempts leases m) (open_ : isOpen m = true) :
    m.attemptCount < maxAttempts := by
  have alive : m.attemptCount ≠ maxAttempts := by
    intro used
    have dead := leased.dead.mp used
    rw [(isOpen_iff.mp open_).2] at dead
    cases dead
  have bound := leased.bounded
  omega

theorem attemptsLeft_failure (errorType : String) (retryAt : Datetime) (now : Datetime)
    (open_ : isOpen m = true) (left : m.attemptCount < maxAttempts) :
    attemptsLeft maxAttempts (assignFailure errorType retryAt maxAttempts now m) + 1 ≤
      attemptsLeft maxAttempts m := by
  obtain ⟨unpublished, alive⟩ := isOpen_iff.mp open_
  rw [attemptsLeft.eq_def maxAttempts m, if_pos open_]
  unfold assignFailure
  split
  next last =>
    have closed : isOpen { m with
        attemptCount := m.attemptCount + 1
        lastError := some (String.ofList (errorType.toList.take 255))
        lockedAt := none
        lockedBy := none
        deadLetteredAt := some now } = false := by
      simp [isOpen]
    rw [attemptsLeft, closed]
    simp only [Bool.false_eq_true, if_false]
    omega
  next again =>
    rw [attemptsLeft]
    split
    · simp only
      omega
    · omega

/-- With the lease in hand, an acknowledgement costs an attempt or closes the message. -/
theorem Acknowledged.lowers (leased : Leased maxAttempts db.outbox.rows leases)
    (limit : config.maxAttempts = maxAttempts) (member : message ∈ db.outbox.rows)
    (open_ : isOpen message = true)
    (effective : db'.outbox.find? message.id ≠ db.outbox.find? message.id)
    (acknowledged : Acknowledged workerId config db message delivery batch db') :
    tally (attemptsLeft maxAttempts) db'.outbox.rows + 1 ≤
      tally (attemptsLeft maxAttempts) db.outbox.rows := by
  have left := (leased.each message member).attemptsLeft_pos open_
  cases acknowledged with
  | unchanged => exact absurd rfl effective
  | @published record action reference deliveryResult _ found same =>
    obtain rfl := Table.eq_of_pk found member same
    have moved := tally_map_key (attemptsLeft maxAttempts) OutboxMessage.id
      (assignPublished deliveryResult batch.now) db.outbox.pkUnique member
    have closed : attemptsLeft maxAttempts (assignPublished deliveryResult batch.now record) = 0 := by
      simp [attemptsLeft, isOpen, assignPublished]
    have before : attemptsLeft maxAttempts record = maxAttempts - record.attemptCount := if_pos open_
    rw [publish_rows]
    omega
  | @failed record errorType _ found same =>
    obtain rfl := Table.eq_of_pk found member same
    have moved := tally_map_key (attemptsLeft maxAttempts) OutboxMessage.id
      (assignFailure errorType (batch.now + retryDelay config record.attemptCount) maxAttempts
        batch.now) db.outbox.pkUnique member
    have costs := attemptsLeft_failure errorType (batch.now + retryDelay config record.attemptCount)
      batch.now open_ left
    rw [fail_rows, limit]
    omega

/-- It leaves the other messages as they are. -/
theorem Acknowledged.others (member : m ∈ db.outbox.rows) (other : m.id ≠ message.id)
    (acknowledged : Acknowledged workerId config db message delivery batch db') :
    m ∈ db'.outbox.rows := by
  cases acknowledged with
  | unchanged => exact member
  | published =>
    rw [publish_rows]
    exact List.mem_map.mpr ⟨m, member, if_neg other⟩
  | failed =>
    rw [fail_rows]
    exact List.mem_map.mpr ⟨m, member, if_neg other⟩

theorem Acknowledged.length (acknowledged : Acknowledged workerId config db message delivery batch db') :
    db'.outbox.rows.length = db.outbox.rows.length := by
  cases acknowledged with
  | unchanged => rfl
  | published => rw [publish_rows, List.length_map]
  | failed => rw [fail_rows, List.length_map]

theorem tally_leaseAll (maxAttempts : Nat) (workerId : String) (now : Datetime) (ids : List UUID) :
    tally (attemptsLeft maxAttempts) (leaseAll db workerId now ids).outbox.rows =
      tally (attemptsLeft maxAttempts) db.outbox.rows := by
  rw [leaseAll_rows, tally, tally, List.map_map]
  congr 1
  apply List.map_congr_left
  intro m _
  simp only [Function.comp]
  split <;> rfl

end

end SupplierAssurance.Outbox

namespace SupplierAssurance.World

open Python Lib Governance Outbox SqlAlchemyOutboxRepository

variable {σ ε ω φ : Type} {platform : Platform σ ε ω φ} {w w' : World σ ω} {label : Label ε φ}
  {maxAttempts : Nat} {workerId : String}

/-! ## One worker -/

/-- The failures that the messages can still have. -/
def budget (maxAttempts : Nat) (w : World σ ω) : Nat :=
  tally (attemptsLeft maxAttempts) w.store.outbox.rows

def drainRank (maxAttempts : Nat) (workerId : String) (w : World σ ω) : Nat :=
  4 * budget maxAttempts w + (w.workers workerId).phase

/-- Nobody works on the outbox but `workerId`, who does not crash and whose polls find
    something. -/
def Attended (platform : Platform σ ε ω φ) (workerId : String) (w : World σ ω) : Label ε φ → Prop
  | .claim other now scan => other = workerId ∧
    selectBatch w.store (platform.config workerId).batchSize (platform.config workerId).lockTimeout
      now scan ≠ []
  | .load other | .start other _ | .acknowledge other => other = workerId
  | .crash _ => False
  | .submit _ _ | .advance _ _ _ | .storeCase _ | .storeReview _ => True

def isStepOf (workerId : String) (label : Label ε φ) : Bool :=
  mover label = some workerId

/-- The messages in the hands of the worker are leased to it, and rows of the outbox as they
    are. -/
structure Alone (maxAttempts : Nat) (workerId : String) (w : World σ ω) : Prop where
  leasing : w.Leasing maxAttempts
  delivering : w.Delivering
  hands : ∀ m ∈ (w.workers workerId).hands, m ∈ w.store.outbox.rows ∧ m.lockedBy = some workerId ∧
    isOpen m = true
  distinct : ((w.workers workerId).hands.map (·.id)).Nodup
  delivered : ∀ m result batch, w.workers workerId = .acknowledging m (.ok result) batch →
    Deliverable result

/-- What a step of the worker or beside it comes to. -/
def Lowers (maxAttempts : Nat) (workerId : String) (w w' : World σ ω) (label : Label ε φ) : Prop :=
  drainRank maxAttempts workerId w' + (if isStepOf workerId label then 1 else 0) +
      4 * (maxAttempts * w.store.outbox.rows.length) ≤
    drainRank maxAttempts workerId w + 4 * (maxAttempts * w'.store.outbox.rows.length)

theorem Alone.advance {index : Nat} {ambient : Ambient} {input : ε} {c : InFlight} {p : Progress σ}
    (alone : Alone maxAttempts workerId w) (leasing : (w.progressed index c.request p).Leasing maxAttempts)
    (delivering : (w.progressed index c.request p).Delivering)
    (advances : Advances platform.supplier w.store w.supplier ambient input c.call p) :
    Alone maxAttempts workerId (w.progressed index c.request p) ∧
      Lowers maxAttempts workerId w (w.progressed index c.request p)
        (.advance index ambient input : Label ε φ) := by
  cases advance_messages advances with
  | same rows =>
    have same : (w.progressed index c.request p).store.outbox.rows = w.store.outbox.rows := rows
    refine ⟨⟨leasing, delivering, ?_, alone.distinct, alone.delivered⟩, ?_⟩
    · intro m member
      rw [same]
      exact alone.hands m member
    · rw [Lowers, drainRank, drainRank, budget, budget, same]
      exact Nat.le_refl _
  | @inserted message id now rows fresh =>
    have grown : (w.progressed index c.request p).store.outbox.rows = w.store.outbox.rows ++
        [SqlAlchemyActionRepository.outboxRecord message id now] := rows
    refine ⟨⟨leasing, delivering, ?_, alone.distinct, alone.delivered⟩, ?_⟩
    · intro m member
      rw [grown]
      obtain ⟨inRows, rest⟩ := alone.hands m member
      exact ⟨List.mem_append_left _ inRows, rest⟩
    · have fewer : attemptsLeft maxAttempts
          (SqlAlchemyActionRepository.outboxRecord message id now) ≤ maxAttempts := by
        rw [attemptsLeft]
        split
        · exact Nat.sub_le ..
        · exact Nat.zero_le _
      have workers : (w.progressed index c.request p).workers = w.workers := rfl
      simp only [Lowers, drainRank, budget, grown, tally_concat, workers, List.length_append,
        List.length_singleton, Nat.mul_add, Nat.mul_one]
      have silent : isStepOf workerId (.advance index ambient input : Label ε φ) = false := rfl
      rw [silent]
      simp only [Bool.false_eq_true, if_false]
      omega

theorem Alone.claim {now : Datetime} {scan : Scan}
    {last : Option (Except OutboxError OutboxDispatchResult)} {chosen : List OutboxMessage}
    {result : OutboxDispatchResult} (idle : w.workers workerId = .idle last)
    (selected : chosen = selectBatch w.store (platform.config workerId).batchSize
      (platform.config workerId).lockTimeout now scan) (finds : chosen ≠ [])
    (store : w'.store = leaseAll w.store workerId now (chosen.map (·.id)))
    (worker : w'.workers workerId = .next ⟨now, chosen.map (lease workerId now), result⟩)
    (leasing : w'.Leasing maxAttempts) (delivering : w'.Delivering) :
    Alone maxAttempts workerId w' ∧
      Lowers maxAttempts workerId w w' (.claim workerId now scan : Label ε φ) := by
  constructor
  · refine ⟨leasing, delivering, ?_, ?_, ?_⟩
    · intro m member
      rw [worker, Worker.hands_next] at member
      obtain ⟨n, isChosen, rfl⟩ := List.mem_map.mp member
      have waits := isChosen
      rw [selected] at waits
      obtain ⟨inRows, eligible⟩ := mem_selectBatch waits
      have open_ : isOpen n = true := isOpen_iff.mpr (claimable_active eligible)
      refine ⟨?_, rfl, open_⟩
      rw [store, leaseAll_rows]
      exact List.mem_map.mpr ⟨n, inRows, if_pos (List.mem_map.mpr ⟨n, isChosen, rfl⟩)⟩
    · rw [worker, Worker.hands_next, List.map_map, selected]
      exact selectBatch_distinct ..
    · intro m delivered batch acknowledging
      rw [worker] at acknowledging
      exact absurd acknowledging (Worker.next_ne_acknowledging _ _ _ _)
  · have busy : (w'.workers workerId).phase = 2 := by
      rw [worker]
      exact Worker.phase_next_cons fun none => finds (List.map_eq_nil_iff.mp none)
    have same : w'.store.outbox.rows.length = w.store.outbox.rows.length := by
      rw [store, leaseAll_rows, List.length_map]
    have own : isStepOf workerId (.claim workerId now scan : Label ε φ) = true := by
      simp [isStepOf, mover]
    rw [Lowers, drainRank, drainRank, busy, idle, same, budget, store, tally_leaseAll, own]
    simp only [if_true, budget, Worker.phase]
    omega

/-- A step of the worker between two acknowledgements. -/
theorem Alone.handle (alone : Alone maxAttempts workerId w) (own : isStepOf workerId label = true)
    (store : w'.store = w.store) (closer : (w'.workers workerId).phase < (w.workers workerId).phase)
    (hands : (w'.workers workerId).hands = (w.workers workerId).hands)
    (delivered : ∀ m result batch, w'.workers workerId = .acknowledging m (.ok result) batch →
      Deliverable result)
    (leasing : w'.Leasing maxAttempts) (delivering : w'.Delivering) :
    Alone maxAttempts workerId w' ∧ Lowers maxAttempts workerId w w' label := by
  constructor
  · refine ⟨leasing, delivering, ?_, ?_, delivered⟩
    · rw [hands, store]
      exact alone.hands
    · rw [hands]
      exact alone.distinct
  · rw [Lowers, drainRank, drainRank, budget, budget, store, own]
    simp only [if_true]
    omega

theorem Alone.acknowledge {message : OutboxMessage} {batch : Batch}
    {delivery : Except String (List (String × String))} {db' : Store} {worker : Worker}
    (alone : Alone maxAttempts workerId w)
    (limit : (platform.config workerId).maxAttempts = maxAttempts)
    (acknowledging : w.workers workerId = .acknowledging message delivery batch)
    (done : Worker.acknowledge workerId (platform.config workerId) w.store message delivery batch =
      (db', worker))
    (acknowledged : Acknowledged workerId (platform.config workerId) w.store message delivery batch db')
    (store : w'.store = db') (isWorker : w'.workers workerId = worker)
    (leasing : w'.Leasing maxAttempts) (delivering : w'.Delivering) :
    Alone maxAttempts workerId w' ∧
      Lowers maxAttempts workerId w w' (.acknowledge workerId : Label ε φ) := by
  have inHands : ∀ m ∈ message :: batch.rest, m ∈ (w.workers workerId).hands := by
    rw [acknowledging]
    exact fun m member => member
  have distinct := alone.distinct
  rw [acknowledging] at distinct
  obtain ⟨inRows, owned, open_⟩ := alone.hands message (inHands message List.mem_cons_self)
  have found : w.store.outbox.find? message.id = some message :=
    Table.find?_eq_some.mpr ⟨inRows, rfl⟩
  have unpublished := (isOpen_iff.mp open_).1
  have deliverable : ∀ result, delivery = .ok result → Deliverable result := by
    rintro result rfl
    exact alone.delivered message result batch acknowledging
  obtain ⟨_, batch', row, result, left, after, settled⟩ :=
    Worker.acknowledge_held (platform.config workerId) batch alone.delivering.delivers found owned
      unpublished deliverable
  cases result.symm.trans done
  have effective : w'.store.outbox.find? message.id ≠ w.store.outbox.find? message.id := by
    rw [store, after, found]
    rintro ⟨⟩
    rcases settled with published | dead | counted
    · rw [unpublished] at published
      cases published
    · rw [(isOpen_iff.mp open_).2] at dead
      cases dead
    · exact absurd counted (Nat.lt_irrefl _)
  rw [← store] at acknowledged
  have fewer := acknowledged.lowers alone.leasing.leased limit inRows open_ effective
  constructor
  · refine ⟨leasing, delivering, ?_, ?_, ?_⟩
    · intro m member
      rw [isWorker, Worker.hands_next, left] at member
      obtain ⟨mRows, rest⟩ := alone.hands m (inHands m (List.mem_cons_of_mem _ member))
      have other : m.id ≠ message.id := by
        intro same
        exact (List.nodup_cons.mp distinct).1 (List.mem_map.mpr ⟨m, member, same⟩)
      exact ⟨acknowledged.others mRows other, rest⟩
    · rw [isWorker, Worker.hands_next, left]
      exact (List.nodup_cons.mp distinct).2
    · intro m result batch busy
      rw [isWorker] at busy
      exact absurd busy (Worker.next_ne_acknowledging _ _ _ _)
  · have own : isStepOf workerId (.acknowledge workerId : Label ε φ) = true := by
      simp [isStepOf, mover]
    have phase := Worker.phase_next batch'
    rw [Lowers, drainRank, drainRank, isWorker, acknowledging, acknowledged.length, own]
    simp only [if_true, budget, Worker.phase.eq_4]
    omega

theorem alone_step (limit : CommonLimit platform maxAttempts)
    (answers : ∀ service input action, (platform.workflow.start service input action).2 ≠ .ok "")
    (alone : Alone maxAttempts workerId w) (attended : Attended platform workerId w label)
    (moved : step platform w label = some w') :
    Alone maxAttempts workerId w' ∧ Lowers maxAttempts workerId w w' label := by
  have leasing := leasing_step limit alone.leasing moved
  have delivering := delivering_step alone.delivering moved
  cases step_moves moved with
  | submit | storeCase | storeReview =>
    exact ⟨⟨leasing, delivering, alone.hands, alone.distinct, alone.delivered⟩, Nat.le_refl _⟩
  | advance _ advances => exact alone.advance leasing delivering advances
  | @claim other now scan last chosen idle selected =>
    obtain ⟨rfl, finds⟩ := attended
    exact Alone.claim idle selected (selected ▸ finds) rfl (Function.update_self ..) leasing delivering
  | @load other message batch loading =>
    obtain rfl := attended
    have own : isStepOf other (.load other : Label ε φ) = true := by simp [isStepOf, mover]
    have worker : (w.setWorker other (.load w.store message batch)).workers other =
        .load w.store message batch := Function.update_self ..
    refine alone.handle own rfl ?_ ?_ ?_ leasing delivering
    · rw [worker, loading]
      exact Nat.lt_succ_of_le (Worker.phase_load w.store message batch)
    · rw [worker, loading, Worker.hands_load]
      rfl
    · intro m result batch' acknowledging
      rw [worker, Worker.load] at acknowledging
      split at acknowledging <;> cases acknowledging
  | @start other input message action batch workflow answer starting started =>
    obtain rfl := attended
    have own : isStepOf other (.start other input : Label ε φ) = true := by simp [isStepOf, mover]
    have worker : (w.setWorker other (.started message batch answer)).workers other =
        .started message batch answer := Function.update_self ..
    have named : answer ≠ .ok "" := by
      have answered := answers w.workflow input action
      rwa [started] at answered
    refine alone.handle own rfl ?_ ?_ ?_ leasing delivering
    · show ((w.setWorker other (.started message batch answer)).workers other).phase < _
      rw [worker, starting, Worker.phase_started]
      exact Nat.one_pos
    · show ((w.setWorker other (.started message batch answer)).workers other).hands = _
      rw [worker, starting, Worker.hands_started]
      rfl
    · intro m result batch' acknowledging
      change (w.setWorker other (.started message batch answer)).workers other = _ at acknowledging
      rw [worker] at acknowledging
      cases answer with
      | error e => cases acknowledging
      | ok reference =>
        cases acknowledging
        have notEmpty : reference ≠ "" := fun empty => named (by rw [empty])
        have fits := platform.references_fit w.workflow input action reference (by rw [started])
        exact ⟨reference, by simp [workflowReference, notEmpty], fits⟩
  | @acknowledge other message batch delivery db' worker acknowledging done acknowledged =>
    obtain rfl := attended
    exact alone.acknowledge (limit.2 other) acknowledging done acknowledged rfl (Function.update_self ..)
      leasing delivering
  | crash => exact absurd attended id

/-! ## The next poll -/

/-- From this time on a claim finds the message, if it is open. -/
def dueAt (lockTimeout : Timedelta) (m : OutboxMessage) : Datetime :=
  match m.lockedAt with
  | none => m.availableAt
  | some lockedAt => max m.availableAt (lockedAt + lockTimeout)

theorem claimable_of_dueAt {lockTimeout : Timedelta} {now : Datetime} {m : OutboxMessage}
    (open_ : isOpen m = true) (late : dueAt lockTimeout m ≤ now) : claimable now lockTimeout m = true := by
  obtain ⟨unpublished, alive⟩ := isOpen_iff.mp open_
  unfold dueAt at late
  split at late
  next unlocked => simp [claimable, unpublished, alive, unlocked, late]
  next lockedAt locked =>
    have due : m.availableAt ≤ now := le_trans (le_max_left ..) late
    have stale : lockedAt ≤ now - lockTimeout := by
      have expired : lockedAt + lockTimeout ≤ now := le_trans (le_max_right ..) late
      exact le_sub_iff_add_le.mpr expired
    simp [claimable, unpublished, alive, locked, due, stale]

/-- Where a worker goes on that polls at `now`, with nothing locked by others. -/
def nextStep (workerId : String) (now : Datetime) (rank : UUID → Nat) (input : φ) :
    Worker → Label ε φ
  | .idle _ => .claim workerId now ⟨[], rank⟩
  | .loading .. => .load workerId
  | .starting .. => .start workerId input
  | .acknowledging .. => .acknowledge workerId

theorem step_nextStep (w : World σ ω) (workerId : String) (now : Datetime) (rank : UUID → Nat)
    (input : φ) :
    (step platform w (nextStep workerId now rank input (w.workers workerId))).isSome := by
  cases at_ : w.workers workerId <;> simp [nextStep, step, at_]

/-- A worker with a message in its hands needs no luck to go on, a poll has to find something. -/
theorem attended_nextStep {now : Datetime} (sized : 1 ≤ (platform.config workerId).batchSize)
    (waits : (∃ last, w.workers workerId = .idle last) → ∃ m ∈ w.store.outbox.rows, isOpen m = true ∧
      dueAt (platform.config workerId).lockTimeout m ≤ now)
    (rank : UUID → Nat) (input : φ) :
    Attended platform workerId w (nextStep workerId now rank input (w.workers workerId)) := by
  cases at_ : w.workers workerId with
  | loading | starting | acknowledging => exact rfl
  | idle last =>
    obtain ⟨m, member, open_, late⟩ := waits ⟨last, at_⟩
    refine ⟨rfl, fun none => ?_⟩
    rcases selected_of_claimable member (claimable_of_dueAt open_ late)
      (platform.config workerId).batchSize ⟨[], rank⟩ List.not_mem_nil with chosen | full
    · rw [none] at chosen
      cases chosen
    · rw [none] at full
      exact absurd full.symm (Nat.ne_of_gt sized)

/-! ## The run -/

/-- Every message is published, or dead after all its attempts. -/
def Drained (maxAttempts : Nat) (w : World σ ω) : Prop :=
  ∀ m ∈ w.store.outbox.rows,
    m.publishedAt.isSome ∨ (m.deadLetteredAt.isSome ∧ m.attemptCount = maxAttempts)

/-- A run from `w` to `w'` that `labels` are the steps of. -/
structure Drains (platform : Platform σ ε ω φ) (maxAttempts : Nat) (workerId : String)
    (w w' : World σ ω) (labels : List (Label ε φ)) : Prop where
  /-- A message takes four steps for each of its attempts at most. -/
  bounded : labels.countP (isStepOf workerId) + 4 * (maxAttempts * w.store.outbox.rows.length) ≤
    4 * budget maxAttempts w + 3 + 4 * (maxAttempts * w'.store.outbox.rows.length)
  /-- The worker stops with the queue drained only. -/
  continues : (Drained maxAttempts w' ∧ ∃ last, w'.workers workerId = .idle last) ∨
    ∃ horizon, ∀ now, horizon ≤ now → ∀ rank input,
      Attended platform workerId w' (nextStep workerId now rank input (w'.workers workerId)) ∧
        (step platform w' (nextStep workerId now rank input (w'.workers workerId))).isSome

theorem Alone.of_idle {last : Option (Except OutboxError OutboxDispatchResult)}
    (limit : CommonLimit platform maxAttempts) (reachable : Reachable platform w)
    (idle : w.workers workerId = .idle last) : Alone maxAttempts workerId w := by
  refine ⟨reachable.invariant (leasing_inductive limit), reachable.invariant delivering_inductive,
    ?_, ?_, ?_⟩
  · intro m member
    rw [idle] at member
    cases member
  · rw [idle]
    exact List.nodup_nil
  · intro m result batch acknowledging
    rw [idle] at acknowledging
    cases acknowledging

theorem drained_of_closed (leased : Leased maxAttempts w.store.outbox.rows w.leases)
    (closed : ∀ m ∈ w.store.outbox.rows, isOpen m = false) : Drained maxAttempts w := by
  intro m member
  cases published : m.publishedAt with
  | some => exact .inl rfl
  | none =>
    cases dead : m.deadLetteredAt with
    | none =>
      have open_ := isOpen_iff.mpr ⟨published, dead⟩
      rw [closed m member] at open_
      cases open_
    | some =>
      have used := (leased.each m member).dead.mpr (by rw [dead]; rfl)
      exact .inr ⟨rfl, used⟩

/-- Whatever the other workers have left behind, one worker that polls often enough and late
    enough closes every message. -/
theorem drains {last : Option (Except OutboxError OutboxDispatchResult)} {labels : List (Label ε φ)}
    (limit : CommonLimit platform maxAttempts) (sized : 1 ≤ (platform.config workerId).batchSize)
    (answers : ∀ service input action, (platform.workflow.start service input action).2 ≠ .ok "")
    (reachable : Reachable platform w) (idle : w.workers workerId = .idle last)
    (runs : RunsWhen (step platform) (Attended platform workerId) w labels w') :
    Drains platform maxAttempts workerId w w' labels := by
  obtain ⟨alone, lowered⟩ := runs.rank (drainRank maxAttempts workerId)
    (fun w => 4 * (maxAttempts * w.store.outbox.rows.length)) (isStepOf workerId)
    (Alone.of_idle limit reachable idle) (alone_step limit answers)
  constructor
  · have start : drainRank maxAttempts workerId w = 4 * budget maxAttempts w + 3 := by
      rw [drainRank, idle, Worker.phase]
    omega
  · by_cases stops : (∀ m ∈ w'.store.outbox.rows, isOpen m = false) ∧
      ∃ last, w'.workers workerId = .idle last
    · exact .inl ⟨drained_of_closed alone.leasing.leased stops.1, stops.2⟩
    right
    by_cases closed : ∀ m ∈ w'.store.outbox.rows, isOpen m = false
    · refine ⟨0, fun now _ rank input => ⟨?_, step_nextStep w' workerId now rank input⟩⟩
      exact attended_nextStep sized (fun isIdle => absurd ⟨closed, isIdle⟩ stops) rank input
    · push Not at closed
      obtain ⟨m, member, notClosed⟩ := closed
      have open_ : isOpen m = true := Bool.eq_true_of_not_eq_false notClosed
      refine ⟨dueAt (platform.config workerId).lockTimeout m,
        fun now late rank input => ⟨?_, step_nextStep w' workerId now rank input⟩⟩
      exact attended_nextStep sized (fun _ => ⟨m, member, open_, late⟩) rank input

instance (w : World σ ω) (label : Label ε φ) : Decidable (Attended platform workerId w label) :=
  match label with
  | .claim other now scan => decidable_of_iff (other = workerId ∧ (selectBatch w.store
      (platform.config workerId).batchSize (platform.config workerId).lockTimeout now scan).isEmpty =
        false) (and_congr_right fun _ => List.isEmpty_eq_false_iff)
  | .load other | .start other _ | .acknowledge other => inferInstanceAs (Decidable (other = workerId))
  | .crash _ => .isFalse id
  | .submit _ _ | .advance _ _ _ | .storeCase _ | .storeReview _ => .isTrue trivial

end SupplierAssurance.World

namespace SupplierAssurance.Sample.Batches

open Python Outbox

/-- "slow" delivers the two messages that wait, and the one that "dead" has left behind when its
    lease is over. -/
def drain : List (Label Datetime Unit) :=
  [.claim "slow" 20 ⟨[], fun _ => 0⟩, .load "slow", .start "slow" (), .acknowledge "slow",
    .load "slow", .start "slow" (), .acknowledge "slow"] ++ deliver "slow" 130000000

end SupplierAssurance.Sample.Batches

namespace SupplierAssurance.World

open Python Lib Governance Outbox SqlAlchemyOutboxRepository

/-- Three messages, one of them in the hands of a dead worker. -/
theorem drains_after_crash : ∃ w w',
    Reachable Sample.Batches.platform w ∧
      RunsWhen (step Sample.Batches.platform) (Attended Sample.Batches.platform "slow") w
        Sample.Batches.drain w' ∧
      budget 2 w = 6 ∧ Drained 2 w' ∧
      Drains Sample.Batches.platform 2 "slow" w w' Sample.Batches.drain := by
  have limit : CommonLimit Sample.Batches.platform 2 := ⟨by decide, fun _ => rfl⟩
  have replayed : ((run (step Sample.Batches.platform)
      (initial [⟨0xa⟩, ⟨0xb⟩] [⟨0x1a⟩, ⟨0x1b⟩] [] ()) Sample.Batches.waiting).map fun w =>
      decide (budget 2 w = 6) &&
      (w.workers "slow").isIdle &&
      (runWhen (step Sample.Batches.platform)
        (fun w label => decide (Attended Sample.Batches.platform "slow" w label)) w
        Sample.Batches.drain).any fun w' =>
          decide (∀ m ∈ w'.store.outbox.rows, m.publishedAt.isSome)) = some true := by
    decide +kernel
  obtain ⟨w, reachable, passed⟩ := reachable_of_run replayed
  simp only [Bool.and_eq_true, decide_eq_true_eq, Option.any_eq_true] at passed
  obtain ⟨⟨attempts, isIdle⟩, w', ran, published⟩ := passed
  obtain ⟨last, idle⟩ := Worker.isIdle_iff.mp isIdle
  have runs : RunsWhen (step Sample.Batches.platform) (Attended Sample.Batches.platform "slow") w
      Sample.Batches.drain w' := runsWhen_of_runWhen (fun _ _ _ met => of_decide_eq_true met) ran
  have answers : ∀ service input action,
      (Sample.Batches.platform.workflow.start service input action).2 ≠ .ok "" := by
    intro _ _ action
    simp [Sample.Batches.platform, Workflows.localApprovalWorkflow]
  exact ⟨w, w', reachable, runs, attempts, fun m member => .inl (published m member),
    drains limit (by decide) answers reachable idle runs⟩

end SupplierAssurance.World
