import SupplierAssurance.Api.Endpoints
import SupplierAssurance.Persistence.Reviews

/-! # The latest review of a case

`SqlAlchemyCaseRepository` takes a review that completed last, `InMemoryCaseRepository` the one
that was saved last.  Every completed review of the first has a later or equal completion than
all others of the case; of the second this holds when reviews are saved in the order in which
they completed, or at least the last one completed last.
-/

namespace SupplierAssurance

open Python Lib

/-- The results that `save_review` stores of a sequence: the first with its identifier. -/
def savedOnce (results : List ReviewResult) : List ReviewResult :=
  results.foldl (fun saved result =>
    if saved.any (·.reviewId = result.reviewId) then saved else saved ++ [result]) []

/-- The last one completed no earlier than the others. -/
def LastIsLatest (saved : List ReviewResult) : Prop :=
  ∀ last ∈ saved.getLast?, ∀ result ∈ saved, result.completedAt ≤ last.completedAt

instance (saved : List ReviewResult) : Decidable (LastIsLatest saved) :=
  inferInstanceAs (Decidable (∀ last ∈ saved.getLast?, ∀ result ∈ saved, _))

/-- The answer is a stored review of those given, and none of them completed later. -/
def ReturnsLatest {ε : Type} (stored : List ReviewResult) (answer : Except ε ReviewResult) : Prop :=
  stored ≠ [] → ∃ result, answer = .ok result ∧
    (∃ review ∈ stored, SqlAlchemyCaseRepository.ReadsAs review result) ∧
    ∀ review ∈ stored, review.completedAt ≤ result.completedAt

/-! ## In memory -/

namespace InMemoryCaseRepository

/-- A repository in which no review has been saved. -/
def withoutReviews (cases : UUID → Option SupplierCase) (events : UUID → List AuditEvent) :
    InMemoryCaseRepository :=
  ⟨cases, fun _ => [], fun _ => none, events⟩

def saveReviews (repo : InMemoryCaseRepository) (results : List ReviewResult) :
    InMemoryCaseRepository :=
  results.foldl saveReview repo

/-- The repository holds these reviews, in this order. -/
structure Holds (repo : InMemoryCaseRepository) (saved : List ReviewResult) : Prop where
  reviews : ∀ caseId, repo.reviews caseId = saved.filter (·.caseId = caseId)
  known : ∀ reviewId, (repo.reviewsById reviewId).isSome = saved.any (·.reviewId = reviewId)

theorem Holds.saveReview {repo : InMemoryCaseRepository} {saved : List ReviewResult}
    (holds : Holds repo saved) (result : ReviewResult) :
    Holds (repo.saveReview result)
      (if saved.any (·.reviewId = result.reviewId) then saved else saved ++ [result]) := by
  have known := holds.known result.reviewId
  unfold InMemoryCaseRepository.saveReview
  split
  next existing =>
    simp only [existing, Option.isSome_some] at known
    rw [← known]
    exact holds
  next new =>
    simp only [new, Option.isSome_none] at known
    rw [← known]
    constructor
    · intro caseId
      by_cases onCase : result.caseId = caseId
      · subst onCase
        simp [holds.reviews]
      · have other : caseId ≠ result.caseId := fun same => onCase same.symm
        simp [Function.update_of_ne other, holds.reviews, onCase]
    · intro reviewId
      by_cases same : result.reviewId = reviewId
      · subst same
        simp
      · have other : reviewId ≠ result.reviewId := fun equal => same equal.symm
        simp [Function.update_of_ne other, holds.known, same]

theorem holds_saveReviews (cases : UUID → Option SupplierCase) (events : UUID → List AuditEvent)
    (results : List ReviewResult) :
    Holds ((withoutReviews cases events).saveReviews results) (savedOnce results) := by
  have run : ∀ (results saved : List ReviewResult) (repo : InMemoryCaseRepository),
      Holds repo saved → Holds (repo.saveReviews results) (results.foldl (fun saved result =>
        if saved.any (·.reviewId = result.reviewId) then saved else saved ++ [result]) saved) := by
    intro results
    induction results with
    | nil => intro saved repo holds; exact holds
    | cons result rest ih =>
      intro saved repo holds
      exact ih _ _ (holds.saveReview result)
  exact run results [] _ ⟨fun _ => rfl, fun _ => rfl⟩

theorem saveReviews_cases (repo : InMemoryCaseRepository) (results : List ReviewResult) :
    (repo.saveReviews results).cases = repo.cases := by
  induction results generalizing repo with
  | nil => rfl
  | cons result rest ih =>
    refine (ih (repo.saveReview result)).trans ?_
    unfold InMemoryCaseRepository.saveReview
    split <;> rfl

/-- The review saved last is returned, so it is a latest one exactly when it completed last. -/
theorem returnsLatest_iff {repo : InMemoryCaseRepository} {caseId : UUID}
    {supplierCase : SupplierCase} (stored : repo.cases caseId = some supplierCase) :
    ReturnsLatest (repo.reviews caseId) (repo.getLatestReview caseId) ↔
      LastIsLatest (repo.reviews caseId) := by
  simp only [getLatestReview, get, stored]
  cases last : (repo.reviews caseId).getLast? with
  | none =>
    have empty := List.getLast?_eq_none_iff.mp last
    simp [ReturnsLatest, LastIsLatest, empty]
  | some review =>
    have member : review ∈ repo.reviews caseId := List.mem_of_getLast? last
    simp only [ReturnsLatest, LastIsLatest, last, Option.mem_some_iff, forall_eq']
    constructor
    · intro returns
      obtain ⟨result, answered, _, latest⟩ := returns (List.ne_nil_of_mem member)
      cases answered
      exact latest
    · intro latest _
      exact ⟨review, rfl, ⟨review, member, .refl review⟩, latest⟩

end InMemoryCaseRepository

/-! ## In PostgreSQL -/

namespace SqlAlchemyCaseRepository

variable (order : RowOrder)

def saveReviews (db : ReviewTables) (results : List ReviewResult) : ReviewTables :=
  results.foldl (fun db result => (saveReview order db result).1) db

/-- The stored reviews of a case. -/
def storedReviews (db : ReviewTables) (caseId : UUID) : List ReviewResult :=
  (db.reviews.rows.filter (·.caseId = caseId)).map fun review =>
    reviewFromRecords review (db.findingsOf review.id)

variable {order}

theorem saveReview_caseIds (db : ReviewTables) (result : ReviewResult) :
    (saveReview order db result).1.caseIds = db.caseIds := by
  unfold saveReview
  split
  · rfl
  · split
    · rfl
    next flushed parent =>
      split
      next db' inserted =>
        obtain ⟨_, _, _, caseIds, _⟩ := ReviewTables.insertFindings_ok inserted
        obtain ⟨_, _, _, caseIds', _⟩ := ReviewTables.insertReview_ok parent
        exact caseIds.trans caseIds'
      · rfl
      · rfl

theorem saveReviews_caseIds (db : ReviewTables) (results : List ReviewResult) :
    (saveReviews order db results).caseIds = db.caseIds := by
  induction results generalizing db with
  | nil => rfl
  | cons result rest ih => exact (ih _).trans (saveReview_caseIds db result)

theorem mem_reviewsOf {db : ReviewTables} {caseId : UUID} {review : ReviewRunRecord} :
    review ∈ reviewsOf order db caseId ↔ review ∈ db.reviews.rows ∧ review.caseId = caseId := by
  rw [reviewsOf, (order.reviews_perm _).mem_iff, List.mem_filter, decide_eq_true_iff]

/-- The first row of the query: none of the case's reviews completed later. -/
theorem head_reviewsOf {db : ReviewTables} {caseId : UUID} {review : ReviewRunRecord}
    (first : ((reviewsOf order db caseId).insertionSort Later).head? = some review) :
    review ∈ db.reviews.rows ∧ review.caseId = caseId ∧
      ∀ other ∈ db.reviews.rows, other.caseId = caseId → other.completedAt ≤ review.completedAt := by
  have sorted := List.pairwise_insertionSort Later (reviewsOf order db caseId)
  have same := List.perm_insertionSort Later (reviewsOf order db caseId)
  cases listed : (reviewsOf order db caseId).insertionSort Later with
  | nil => simp [listed] at first
  | cons head rest =>
    rw [listed] at first sorted same
    cases first
    obtain ⟨member, onCase⟩ := mem_reviewsOf.mp (same.mem_iff.mp List.mem_cons_self)
    refine ⟨member, onCase, ?_⟩
    intro other isOther otherCase
    have listedOther := same.mem_iff.mpr (mem_reviewsOf.mpr ⟨isOther, otherCase⟩)
    cases List.mem_cons.mp listedOther with
    | inl equal => rw [equal]
    | inr later => exact (List.pairwise_cons.mp sorted).1 other later

/-- Whatever is stored, a latest review is returned. -/
theorem returnsLatest (order : RowOrder) (db : ReviewTables) {caseId : UUID}
    (onCase : caseId ∈ db.caseIds) :
    ReturnsLatest (storedReviews db caseId) (getLatestReview order db caseId) := by
  intro nonempty
  unfold getLatestReview
  rw [if_neg (not_not.mpr onCase)]
  cases first : ((reviewsOf order db caseId).insertionSort Later).head? with
  | none =>
    have none_ : reviewsOf order db caseId = [] := by
      have same := List.perm_insertionSort Later (reviewsOf order db caseId)
      rw [List.head?_eq_none_iff.mp first] at same
      exact same.nil_eq.symm
    refine absurd ?_ nonempty
    rw [storedReviews, List.map_eq_nil_iff, List.filter_eq_nil_iff]
    intro review member same
    have listed : review ∈ reviewsOf order db caseId :=
      mem_reviewsOf.mpr ⟨member, of_decide_eq_true same⟩
    rw [none_] at listed
    cases listed
  | some review =>
    obtain ⟨member, isCase, latest⟩ := head_reviewsOf first
    have found : db.reviews.find? review.id = some review :=
      Table.find?_eq_some.mpr ⟨member, rfl⟩
    refine ⟨reviewFromRecords review (order.findings (db.findingsOf review.id)), ?_, ?_, ?_⟩
    · simp only [getReview, found]
    · refine ⟨reviewFromRecords review (db.findingsOf review.id), ?_, ?_, rfl⟩
      · exact List.mem_map_of_mem (List.mem_filter.mpr ⟨member, by simp [isCase]⟩)
      · exact (order.findings_perm _).map _
    · intro stored isStored
      obtain ⟨other, isOther, rfl⟩ := List.mem_map.mp isStored
      obtain ⟨isRow, otherCase⟩ := List.mem_filter.mp isOther
      exact latest other isRow (of_decide_eq_true otherCase)

end SqlAlchemyCaseRepository

/-! ## Both -/

/-- After any sequence of saves of arbitrary results, for a case that exists in both
    repositories: both answer with a latest review exactly when, of the results of the case that
    were saved, the last one completed no earlier than the others. -/
theorem latest_review_iff (order : RowOrder) (cases : UUID → Option SupplierCase)
    (events : UUID → List AuditEvent) (caseIds : List UUID) (results : List ReviewResult)
    (caseId : UUID) (inMemory : (cases caseId).isSome) (inTables : caseId ∈ caseIds) :
    let repo := (InMemoryCaseRepository.withoutReviews cases events).saveReviews results
    let db := SqlAlchemyCaseRepository.saveReviews order (.empty caseIds) results
    (ReturnsLatest (repo.reviews caseId) (repo.getLatestReview caseId) ∧
      ReturnsLatest (SqlAlchemyCaseRepository.storedReviews db caseId)
        (SqlAlchemyCaseRepository.getLatestReview order db caseId)) ↔
      LastIsLatest ((savedOnce results).filter (·.caseId = caseId)) := by
  intro repo db
  obtain ⟨supplierCase, stored⟩ := Option.isSome_iff_exists.mp inMemory
  have case_ : repo.cases caseId = some supplierCase := by
    rw [InMemoryCaseRepository.saveReviews_cases]
    exact stored
  have onCase : caseId ∈ db.caseIds := by
    rw [SqlAlchemyCaseRepository.saveReviews_caseIds]
    exact inTables
  have held := (InMemoryCaseRepository.holds_saveReviews cases events results).reviews caseId
  rw [← held, ← InMemoryCaseRepository.returnsLatest_iff case_]
  exact and_iff_left (SqlAlchemyCaseRepository.returnsLatest order db onCase)

namespace TwoReviews

def caseId : UUID := ⟨1⟩

/-- A completed review of the case. -/
def review (reviewId : UUID) (completedAt : Datetime) : ReviewResult where
  reviewId := reviewId
  caseId := caseId
  findings := []
  recommendation := ⟨.approve, "Low risk.", [], 1, certain_range⟩
  modelBackend := "openai"
  startedAt := 0
  completedAt := completedAt

def cases : UUID → Option SupplierCase :=
  fun _ => some ⟨caseId, "tenant-a", "Acme", "", .inReview, [], 0, 0, sampleTenant_bounded⟩

end TwoReviews

open TwoReviews in
/-- Two reviews saved in the order in which they completed. -/
theorem latest_review_iff_in_order :
    ReturnsLatest [review ⟨2⟩ 5, review ⟨3⟩ 9]
      (((InMemoryCaseRepository.withoutReviews cases fun _ => []).saveReviews
        [review ⟨2⟩ 5, review ⟨3⟩ 9]).getLatestReview caseId) :=
  ((latest_review_iff .insertion cases (fun _ => []) [caseId] [review ⟨2⟩ 5, review ⟨3⟩ 9] caseId
    rfl (by decide)).mpr (by decide)).1

open TwoReviews in
/-- The review that completed at 9 is saved before the one that completed at 5. -/
theorem later_review_saved_first :
    ¬ ∀ (order : RowOrder) (cases : UUID → Option SupplierCase) (caseIds : List UUID)
        (results : List ReviewResult) (caseId : UUID), (cases caseId).isSome → caseId ∈ caseIds →
      let repo := (InMemoryCaseRepository.withoutReviews cases fun _ => []).saveReviews results
      let db := SqlAlchemyCaseRepository.saveReviews order (.empty caseIds) results
      ReturnsLatest (repo.reviews caseId) (repo.getLatestReview caseId) ∧
        ReturnsLatest (SqlAlchemyCaseRepository.storedReviews db caseId)
          (SqlAlchemyCaseRepository.getLatestReview order db caseId) := by
  intro claimed
  obtain ⟨returns, _⟩ := claimed .insertion cases [caseId] [review ⟨3⟩ 9, review ⟨2⟩ 5] caseId rfl
    (by decide)
  have held := (InMemoryCaseRepository.holds_saveReviews cases (fun _ => [])
    [review ⟨3⟩ 9, review ⟨2⟩ 5]).reviews caseId
  have last := (InMemoryCaseRepository.returnsLatest_iff rfl).mp returns
  rw [held] at last
  exact absurd last (by decide)

end SupplierAssurance
