import SupplierAssurance.Lib.Transition
import SupplierAssurance.Persistence.Reviews

/-! # Concurrent saves of one review

Any number of `save_review` calls with the same result, interleaved at their database round
trips.  A transaction that has flushed its review row holds it until it commits: another
insert of the same key waits for that, and then violates the primary key.  The flush of the
review row stands before the `try`, so this violation is not answered with the stored review.
-/

namespace SupplierAssurance

open Python Lib SqlAlchemyCaseRepository

/-- Where a call stands: the round trip that comes next, or its answer. -/
inductive SaveCall where
  /-- `session.get(ReviewRunRecord, result.review_id)`. -/
  | checking
  /-- `get_review`, after the check found the review or the commit was rolled back. -/
  | reloading
  /-- `session.flush()` of the review row. -/
  | flushing
  /-- `session.commit()`, with the review row flushed and the findings pending. -/
  | committing
  | returned (answer : Except StoreError ReviewResult)

/-- The call holds an uncommitted review row. -/
def SaveCall.holdsRow : SaveCall → Bool
  | .committing => true
  | _ => false

/-- The call is about to flush its row. -/
def SaveCall.flushes : SaveCall → Bool
  | .flushing => true
  | _ => false

/-- The call has not found a review. -/
def SaveCall.inserting : SaveCall → Bool
  | .checking | .flushing | .committing => true
  | .reloading | .returned _ => false

/-- The next round trip of a call; `none` while it waits for another transaction. -/
def SaveCall.advance (result : ReviewResult) (order : RowOrder) (db : ReviewTables) (locked : Bool) :
    SaveCall → Option (ReviewTables × SaveCall)
  | .checking =>
    match db.reviews.find? result.reviewId with
    | some _ => some (db, .reloading)
    | none => some (db, .flushing)
  | .reloading => some (db, .returned (getReview order db result.reviewId))
  | .flushing =>
    if locked then none
    else
      match db.insertReview (reviewRecord result) with
      | .error e => some (db, .returned (.error (.database e)))
      | .ok _ => some (db, .committing)
  | .committing =>
    -- no other transaction has committed the row in the meantime, so it is still accepted
    match insertResult db result with
    | .ok db' => some (db', .returned (.ok result))
    | .error .integrityError => some (db, .reloading)
    | .error .dataError => some (db, .returned (.error (.database .dataError)))
  | .returned _ => none

structure SaveWorld where
  db : ReviewTables
  calls : List SaveCall

inductive SaveLabel where
  | submit
  | advance (index : Nat) (order : RowOrder)

namespace SaveWorld

def initial (db : ReviewTables) : SaveWorld := ⟨db, []⟩

/-- Some transaction holds the row. -/
def locked (w : SaveWorld) : Bool :=
  w.calls.any SaveCall.holdsRow

def step (result : ReviewResult) (w : SaveWorld) : SaveLabel → Option SaveWorld
  | .submit => some { w with calls := w.calls ++ [.checking] }
  | .advance index order => do
    let call ← w.calls[index]?
    let (db, call') ← call.advance result order w.db w.locked
    return ⟨db, w.calls.set index call'⟩

/-- A call flushes its row only while no review of the identifier is committed. -/
def Timely (result : ReviewResult) (w : SaveWorld) : SaveLabel → Prop
  | .submit => True
  | .advance index _ => ∀ call ∈ w.calls[index]?, call.flushes →
    ∀ review ∈ w.db.reviews.rows, review.id ≠ result.reviewId

instance (result : ReviewResult) (w : SaveWorld) (label : SaveLabel) :
    Decidable (Timely result w label) :=
  match label with
  | .submit => .isTrue trivial
  | .advance index _ => inferInstanceAs (Decidable (∀ call ∈ w.calls[index]?, call.flushes →
    ∀ review ∈ w.db.reviews.rows, review.id ≠ result.reviewId))

/-- How many transactions hold the row. -/
def holders (w : SaveWorld) : Nat :=
  tally (fun call => if call.holdsRow then 1 else 0) w.calls

/-! ## What holds -/

/-- Every call that has returned returned the stored review, and there is one; it is the result
    of the calls, with one copy of each finding, unless a review was stored before them. -/
structure Idempotent (result : ReviewResult) (db : ReviewTables) (w : SaveWorld) : Prop where
  answers : ∀ answer, .returned answer ∈ w.calls → ∃ review read,
    w.db.reviews.rows.filter (·.id = result.reviewId) = [review] ∧ answer = .ok read ∧
    ReadsAs (reviewFromRecords review (w.db.findingsOf result.reviewId)) read
  own : (∀ old ∈ db.reviews.rows, old.id ≠ result.reviewId) → ∀ answer, .returned answer ∈ w.calls →
    Stored w.db result

/-- How far the calls are: none has committed, or the review is stored and no transaction is
    about to insert it again. -/
inductive Phase (result : ReviewResult) (db : ReviewTables) (w : SaveWorld) : Prop
  | unsaved : w.db = db → (∀ old ∈ db.reviews.rows, old.id ≠ result.reviewId) →
      (∀ call ∈ w.calls, call.inserting) → w.holders ≤ 1 → Phase result db w
  | saved {review : ReviewRunRecord} : review ∈ w.db.reviews.rows → review.id = result.reviewId →
      (∀ call ∈ w.calls, call.holdsRow = false) →
      (∀ answer, .returned answer ∈ w.calls → ∃ read, answer = .ok read ∧
        ReadsAs (reviewFromRecords review (w.db.findingsOf result.reviewId)) read) →
      ((∀ old ∈ db.reviews.rows, old.id ≠ result.reviewId) → Stored w.db result) → Phase result db w

section

variable {result : ReviewResult} {db : ReviewTables} {w w' : SaveWorld}

/-- Every step is a submission, or one round trip of a call. -/
theorem step_advance {index : Nat} {order : RowOrder}
    (moved : step result w (.advance index order) = some w') :
    ∃ call call', w.calls[index]? = some call ∧
      call.advance result order w.db w.locked = some (w'.db, call') ∧
      w'.calls = w.calls.set index call' := by
  simp only [step, Option.bind_eq_bind, Option.bind_eq_some_iff] at moved
  obtain ⟨call, at_, ⟨db', call'⟩, advanced, equal⟩ := moved
  cases equal
  exact ⟨call, call', at_, advanced, rfl⟩

theorem mem_calls_set {index : Nat} {call' other : SaveCall}
    (same : w'.calls = w.calls.set index call') (member : other ∈ w'.calls) :
    other ∈ w.calls ∨ other = call' :=
  List.mem_or_eq_of_mem_set (same ▸ member)

theorem reviewFromRecords_readsAs (review : ReviewRunRecord) {findings findings' : List FindingRecord}
    (same : findings'.Perm findings) :
    ReadsAs (reviewFromRecords review findings) (reviewFromRecords review findings') :=
  ⟨same.map _, rfl⟩

/-- The stored review reads as the result whose records it has. -/
theorem stored_readsAs (stored : Stored db result) :
    ReadsAs (reviewFromRecords (reviewRecord result) (db.findingsOf result.reviewId)) result := by
  have read := reviewFromRecords_readsAs (reviewRecord result) stored.findings.symm
  rwa [reviewFromRecords_reviewRecord] at read

theorem holders_eq_zero_iff : w.holders = 0 ↔ ∀ call ∈ w.calls, call.holdsRow = false := by
  unfold holders
  induction w.calls with
  | nil => simp [tally]
  | cons call rest ih =>
    simp only [tally, List.map_cons, List.sum_cons, List.forall_mem_cons] at ih ⊢
    rw [Nat.add_eq_zero_iff, ih]
    simp

theorem holders_eq_zero_of_not_locked (free : w.locked = false) : w.holders = 0 := by
  refine holders_eq_zero_iff.mpr fun call member => ?_
  simpa using List.any_eq_false.mp free call member

theorem holders_set {index : Nat} {call call' : SaveCall} (at_ : w.calls[index]? = some call)
    (same : w'.calls = w.calls.set index call') :
    w'.holders + (if call.holdsRow then 1 else 0) =
      w.holders + if call'.holdsRow then 1 else 0 := by
  rw [holders, same]
  exact tally_set at_ call'

/-! ## The steps -/

theorem phase_submit (phase : Phase result db w) :
    Phase result db { w with calls := w.calls ++ [.checking] } := by
  cases phase with
  | unsaved same fresh inserting single =>
    refine .unsaved same fresh ?_ ?_
    · intro call member
      cases List.mem_append.mp member with
      | inl old => exact inserting call old
      | inr new => exact List.mem_singleton.mp new ▸ rfl
    · rw [holders, tally_concat]
      exact single
  | saved stored id free answers own =>
    refine .saved stored id ?_ ?_ own
    · intro call member
      cases List.mem_append.mp member with
      | inl old => exact free call old
      | inr new => exact List.mem_singleton.mp new ▸ rfl
    · intro answer member
      cases List.mem_append.mp member with
      | inl old => exact answers answer old
      | inr new => cases List.mem_singleton.mp new

/-- Nothing is stored yet: a check finds nothing, the first flush is accepted, and the commit
    stores the result. -/
theorem phase_unsaved {index : Nat} {order : RowOrder} {call call' : SaveCall} (same : w.db = db)
    (fresh : ∀ old ∈ db.reviews.rows, old.id ≠ result.reviewId)
    (inserting : ∀ call ∈ w.calls, call.inserting) (single : w.holders ≤ 1)
    (storable : Storable db result) (at_ : w.calls[index]? = some call)
    (advanced : call.advance result order w.db w.locked = some (w'.db, call'))
    (calls : w'.calls = w.calls.set index call') : Phase result db w' := by
  have counted := holders_set at_ calls
  have kept (isInserting : call'.inserting) : ∀ other ∈ w'.calls, other.inserting := by
    intro other member
    cases mem_calls_set calls member with
    | inl old => exact inserting other old
    | inr new => exact new ▸ isInserting
  have begun := inserting call (List.mem_of_getElem? at_)
  cases call with
  | checking =>
    have unknown : db.reviews.find? result.reviewId = none := Table.find?_eq_none.mpr fresh
    simp only [SaveCall.advance, same, unknown, Option.some.injEq, Prod.mk.injEq] at advanced
    obtain ⟨sameDb, rfl⟩ := advanced
    refine .unsaved sameDb.symm fresh (kept rfl) ?_
    simp only [SaveCall.holdsRow, Bool.false_eq_true, if_false] at counted
    omega
  | flushing =>
    simp only [SaveCall.advance] at advanced
    split at advanced
    · cases advanced
    next free =>
      obtain ⟨flushed, _, parent, _⟩ := storable.insertResult fresh
      simp only [same, parent, Option.some.injEq, Prod.mk.injEq] at advanced
      obtain ⟨sameDb, rfl⟩ := advanced
      refine .unsaved sameDb.symm fresh (kept rfl) ?_
      -- the flush went through, so no other transaction holds the row
      have none_ := holders_eq_zero_of_not_locked (by simpa using free)
      simp only [SaveCall.holdsRow, Bool.false_eq_true, if_false, if_true] at counted
      omega
  | committing =>
    obtain ⟨flushed, db', parent, inserted⟩ := storable.insertResult fresh
    have committed := insertResult_of_inserted parent inserted
    simp only [SaveCall.advance, same, committed, Option.some.injEq, Prod.mk.injEq] at advanced
    obtain ⟨sameDb, rfl⟩ := advanced
    have stored := stored_of_insertResult committed
    rw [sameDb] at stored
    have free : ∀ other ∈ w'.calls, other.holdsRow = false := by
      refine holders_eq_zero_iff.mp ?_
      simp only [SaveCall.holdsRow, Bool.false_eq_true, if_false, if_true] at counted
      omega
    refine .saved stored.review rfl free ?_ fun _ => stored
    intro answer member
    cases mem_calls_set calls member with
    | inl old => cases inserting _ old
    | inr new =>
      cases new
      exact ⟨result, rfl, stored_readsAs stored⟩
  | reloading | returned => cases begun

/-- The review is stored: a check finds it and the reload returns it. -/
theorem phase_saved {index : Nat} {order : RowOrder} {call call' : SaveCall}
    {review : ReviewRunRecord} (stored : review ∈ w.db.reviews.rows) (id : review.id = result.reviewId)
    (free : ∀ call ∈ w.calls, call.holdsRow = false)
    (answers : ∀ answer, .returned answer ∈ w.calls → ∃ read, answer = .ok read ∧
      ReadsAs (reviewFromRecords review (w.db.findingsOf result.reviewId)) read)
    (own : (∀ old ∈ db.reviews.rows, old.id ≠ result.reviewId) → Stored w.db result)
    (timely : Timely result w (.advance index order)) (at_ : w.calls[index]? = some call)
    (advanced : call.advance result order w.db w.locked = some (w'.db, call'))
    (calls : w'.calls = w.calls.set index call') : Phase result db w' := by
  have found : w.db.reviews.find? result.reviewId = some review :=
    Table.find?_eq_some.mpr ⟨stored, id⟩
  have keep (sameDb : w.db = w'.db) (released : call'.holdsRow = false)
      (answered : ∀ answer, call' = .returned answer → ∃ read, answer = .ok read ∧
        ReadsAs (reviewFromRecords review (w.db.findingsOf result.reviewId)) read) :
      Phase result db w' := by
    refine .saved (sameDb ▸ stored) id ?_ ?_ (sameDb ▸ own)
    · intro other member
      cases mem_calls_set calls member with
      | inl old => exact free other old
      | inr new => exact new ▸ released
    · rw [← sameDb]
      intro answer member
      cases mem_calls_set calls member with
      | inl old => exact answers answer old
      | inr new => exact answered answer new.symm
  cases call with
  | checking =>
    simp only [SaveCall.advance, found, Option.some.injEq, Prod.mk.injEq] at advanced
    obtain ⟨sameDb, rfl⟩ := advanced
    exact keep sameDb rfl fun answer returned => by cases returned
  | reloading =>
    simp only [SaveCall.advance, Option.some.injEq, Prod.mk.injEq] at advanced
    obtain ⟨sameDb, rfl⟩ := advanced
    refine keep sameDb rfl fun answer returned => ?_
    cases returned
    rw [getReview, found]
    exact ⟨_, rfl, reviewFromRecords_readsAs review (order.findings_perm _)⟩
  | flushing =>
    exact absurd id (timely .flushing at_ rfl review stored)
  | committing => cases free _ (List.mem_of_getElem? at_)
  | returned => cases advanced

theorem phase_step {label : SaveLabel} (storable : (∀ old ∈ db.reviews.rows, old.id ≠ result.reviewId) →
      Storable db result) (phase : Phase result db w) (timely : Timely result w label)
    (moved : step result w label = some w') : Phase result db w' := by
  cases label with
  | submit =>
    cases moved
    exact phase_submit phase
  | advance index order =>
    obtain ⟨call, call', at_, advanced, calls⟩ := step_advance moved
    cases phase with
    | unsaved same fresh inserting single =>
      exact phase_unsaved same fresh inserting single (storable fresh) at_ advanced calls
    | saved stored id free answers own =>
      exact phase_saved stored id free answers own timely at_ advanced calls

/-- A flush behind a commit raises, outside the `try`. -/
theorem late_flush_raises {index : Nat} {order : RowOrder}
    (late : ¬ Timely result w (.advance index order))
    (moved : step result w (.advance index order) = some w') :
    ∃ e, w'.calls[index]? = some (.returned (.error (.database e))) := by
  obtain ⟨call, call', at_, advanced, calls⟩ := step_advance moved
  have inside : index < w.calls.length := (List.getElem?_eq_some_iff.mp at_).1
  obtain ⟨flushes, review, stored, id⟩ : call.flushes ∧
      ∃ review ∈ w.db.reviews.rows, review.id = result.reviewId := by
    simpa [Timely, at_] using late
  cases call with
  | flushing =>
    simp only [SaveCall.advance] at advanced
    split at advanced
    · cases advanced
    · cases parent : w.db.insertReview (reviewRecord result) with
      | error e =>
        simp only [parent, Option.some.injEq, Prod.mk.injEq] at advanced
        obtain ⟨_, rfl⟩ := advanced
        exact ⟨e, by rw [calls, List.getElem?_set_self inside]⟩
      | ok flushed =>
        obtain ⟨_, _, fresh, _⟩ := ReviewTables.insertReview_ok parent
        exact absurd id (fresh review stored)
  | checking | reloading | committing | returned => cases flushes

theorem Phase.idempotent (phase : Phase result db w) : Idempotent result db w := by
  cases phase with
  | unsaved _ _ inserting _ =>
    have none_ : ∀ answer, .returned answer ∉ w.calls := by
      intro answer member
      cases inserting _ member
    exact ⟨fun answer member => absurd member (none_ answer),
      fun _ answer member => absurd member (none_ answer)⟩
  | @saved review stored id _ answers own =>
    refine ⟨?_, fun fresh _ _ => own fresh⟩
    intro answer member
    obtain ⟨read, answered, readsAs⟩ := answers answer member
    refine ⟨review, read, ?_, answered, readsAs⟩
    have distinct : (w.db.reviews.rows.filter (·.id = result.reviewId)).Nodup :=
      (List.Nodup.of_map _ w.db.reviews.pkUnique).filter _
    have only : ∀ other ∈ w.db.reviews.rows.filter (·.id = result.reviewId), other = review := by
      intro other isOther
      obtain ⟨isRow, same⟩ := List.mem_filter.mp isOther
      exact Table.eq_of_pk isRow stored ((of_decide_eq_true same).trans id.symm)
    have found : review ∈ w.db.reviews.rows.filter (·.id = result.reviewId) :=
      List.mem_filter.mpr ⟨stored, decide_eq_true id⟩
    exact (List.perm_singleton.mp ((List.perm_ext_iff_of_nodup distinct (List.nodup_singleton _)).mpr
      fun other => ⟨fun isOther => List.mem_singleton.mpr (only other isOther),
        fun same => List.mem_singleton.mp same ▸ found⟩))

theorem phase_initial (db : ReviewTables) : Phase result db (initial db) := by
  by_cases fresh : ∀ old ∈ db.reviews.rows, old.id ≠ result.reviewId
  · exact .unsaved rfl fresh (by simp [initial]) (by simp [initial, holders, tally])
  · obtain ⟨review, stored, id⟩ : ∃ review ∈ db.reviews.rows, review.id = result.reviewId := by
      simpa using fresh
    exact .saved stored id (by simp [initial]) (by simp [initial])
      fun fresh => absurd id (fresh review stored)

/-- In every run whose flushes are all timely, of any number of calls with a result that the
    tables accept if its review is not stored: every call that has returned returned the stored
    review, and there is exactly one.  A flush that is not timely makes its call raise. -/
theorem idempotent_of_timely (storable : (∀ old ∈ db.reviews.rows,
      old.id ≠ result.reviewId) → Storable db result)
    (steps : StepsWhen (step result) (Timely result) (initial db) w) :
    Idempotent result db w ∧ ∀ index order w', ¬ Timely result w (.advance index order) →
      step result w (.advance index order) = some w' →
      ∃ e, w'.calls[index]? = some (.returned (.error (.database e))) :=
  ⟨(steps.invariant (phase_initial db) (phase_step storable)).idempotent,
    fun _ _ _ late moved => late_flush_raises late moved⟩

end

namespace Sample

def result : ReviewResult where
  reviewId := ⟨2⟩
  caseId := ⟨1⟩
  findings := []
  recommendation := ⟨.approve, "Low risk.", [], 1, certain_range⟩
  modelBackend := "openai"
  startedAt := 0
  completedAt := 1

def tables : ReviewTables := .empty [⟨1⟩]

theorem result_storable : Storable tables result where
  onCase := by decide
  modelBackend := by decide
  rationale := by decide
  fits := by simp [result]
  distinct := by simp [result]
  unused := by simp [result]

/-- The next round trip of a call. -/
def trip (index : Nat) : SaveLabel :=
  .advance index .insertion

/-- A second call after the first one. -/
def sequential : List SaveLabel :=
  [.submit, trip 0, trip 0, trip 0, .submit, trip 1, trip 1]

/-- A second call that looks before the first one commits. -/
def overlapping : List SaveLabel :=
  [.submit, .submit, trip 0, trip 1, trip 0, trip 0, trip 1]

def SaveCall.answered (ok : Bool) : SaveCall → Bool
  | .returned (.ok _) => ok
  | .returned (.error _) => !ok
  | _ => false

end Sample

open Sample in
theorem idempotent_of_timely_sequential : ∃ w : SaveWorld,
    w.calls.map (SaveCall.answered true) = [true, true] ∧ Idempotent result tables w := by
  have replayed : ((runWhen (step result) (fun w label => decide (Timely result w label))
      (initial tables) sequential).map fun w =>
        decide (w.calls.map (SaveCall.answered true) = [true, true])) = some true := by
    decide +kernel
  obtain ⟨w, ran, passed⟩ := Option.map_eq_some_iff.mp replayed
  have steps : StepsWhen (step result) (Timely result) (initial tables) w :=
    stepsWhen_of_runWhen (fun _ _ _ passed => of_decide_eq_true passed) ran
  exact ⟨w, of_decide_eq_true passed, (idempotent_of_timely (fun _ => result_storable) steps).1⟩

open Sample in
/-- Two calls that overlap: the second one raises. -/
theorem overlapping_save_raises :
    ¬ ∀ (result : ReviewResult) (db : ReviewTables) (w : SaveWorld), Storable db result →
      Steps (step result) (initial db) w → Idempotent result db w := by
  intro claimed
  have replayed : ((run (step result) (initial tables) overlapping).map fun w =>
      (w.calls.any (SaveCall.answered false))) = some true := by decide +kernel
  obtain ⟨w, ran, failed⟩ := Option.map_eq_some_iff.mp replayed
  obtain ⟨call, member, raised⟩ := List.any_eq_true.mp failed
  have holds := claimed result tables w result_storable (steps_of_run ran)
  cases call with
  | returned answer =>
    obtain ⟨_, read, _, answered, _⟩ := holds.answers answer member
    rw [answered] at raised
    cases raised
  | checking | reloading | flushing | committing => cases raised

end SaveWorld

end SupplierAssurance
