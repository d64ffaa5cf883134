import Mathlib.Data.List.Sort
import Mathlib.Logic.Function.Basic
import SupplierAssurance.Persistence.Store

/-! # The case repositories

`InMemoryCaseRepository` is the dictionaries of cases, reviews and audit events.  Each
call runs under the repository's lock, or is a single read.  Of `SqlAlchemyCaseRepository`
this module has the two operations on the audit log.
-/

namespace SupplierAssurance

open Python

inductive CaseError where
  | caseNotFound (caseId : UUID)
  | reviewNotFound (reviewId : UUID)
deriving DecidableEq

def CaseError.text : CaseError → String
  | .caseNotFound caseId => "Supplier case " ++ caseId.str ++ " was not found"
  | .reviewNotFound reviewId => "Review " ++ reviewId.str ++ " was not found"

/-- `type(exc).__name__`. -/
def CaseError.errorType : CaseError → String
  | .caseNotFound _ => "CaseNotFoundError"
  | .reviewNotFound _ => "ReviewNotFoundError"

structure InMemoryCaseRepository where
  cases : UUID → Option SupplierCase
  reviews : UUID → List ReviewResult
  reviewsById : UUID → Option ReviewResult
  events : UUID → List AuditEvent

namespace InMemoryCaseRepository

def get (repo : InMemoryCaseRepository) (caseId : UUID) : Except CaseError SupplierCase :=
  match repo.cases caseId with
  | none => .error (.caseNotFound caseId)
  | some supplierCase => .ok supplierCase

def setStatus (repo : InMemoryCaseRepository) (ambient : Ambient) (caseId : UUID)
    (status : CaseStatus) : Except CaseError InMemoryCaseRepository := do
  let current ← repo.get caseId
  let updated := { current with status, updatedAt := ambient.now }
  return { repo with cases := Function.update repo.cases caseId (some updated) }

/-- A stored review of the same identifier is left as it is. -/
def saveReview (repo : InMemoryCaseRepository) (result : ReviewResult) : InMemoryCaseRepository :=
  match repo.reviewsById result.reviewId with
  | some _ => repo
  | none =>
    { repo with
      reviews := Function.update repo.reviews result.caseId (repo.reviews result.caseId ++ [result])
      reviewsById := Function.update repo.reviewsById result.reviewId (some result) }

def getReview (repo : InMemoryCaseRepository) (reviewId : UUID) : Except CaseError ReviewResult :=
  match repo.reviewsById reviewId with
  | none => .error (.reviewNotFound reviewId)
  | some result => .ok result

def appendAuditEvent (repo : InMemoryCaseRepository) (ambient : Ambient) (event : AuditEventCreate) :
    Except CaseError InMemoryCaseRepository := do
  let _ ← repo.get event.caseId
  let stored : AuditEvent := { event with id := ambient.uuid, createdAt := ambient.now }
  return { repo with
    events := Function.update repo.events event.caseId (repo.events event.caseId ++ [stored]) }

end InMemoryCaseRepository

namespace SqlAlchemyCaseRepository

/-- `ORDER BY created_at, id`. -/
def Before (e e' : AuditEvent) : Prop :=
  e.createdAt < e'.createdAt ∨ e.createdAt = e'.createdAt ∧ e.id.int ≤ e'.id.int

instance : DecidableRel Before := fun _ _ => inferInstanceAs (Decidable (_ ∨ _))

instance : Std.Total Before where
  total e e' := by
    have total : ∀ (x y : Int) (m n : Nat), (x < y ∨ x = y ∧ m ≤ n) ∨ (y < x ∨ y = x ∧ n ≤ m) := by
      omega
    exact total _ _ e.id.int.toNat e'.id.int.toNat

instance : IsTrans AuditEvent Before where
  trans e e' e'' := by
    have trans : ∀ (x y z : Int) (m n k : Nat), (x < y ∨ x = y ∧ m ≤ n) → (y < z ∨ y = z ∧ n ≤ k) →
        (x < z ∨ x = z ∧ m ≤ k) := by
      omega
    exact trans _ _ _ e.id.int.toNat e'.id.int.toNat e''.id.int.toNat

/-- `append_audit_event`; `none` is an exception of the repository or of the database. -/
def appendAuditEvent (db : Store) (event : AuditEventCreate) (ambient : Ambient) : Option Store :=
  if event.caseId ∈ db.caseIds then
    (db.audit.insert? { event with id := ambient.uuid, createdAt := ambient.now }).map
      fun audit => { db with audit }
  else none

def listAuditEvents (db : Store) (caseId : UUID) : Except CaseError (List AuditEvent) :=
  if caseId ∈ db.caseIds then
    .ok ((db.audit.rows.filter fun e => e.caseId = caseId).insertionSort Before)
  else .error (.caseNotFound caseId)

/-- Events whose clock readings increase in the order in which they were committed are
    listed in that order, whatever else is listed. -/
theorem filter_insertionSort (events : List AuditEvent) (p : AuditEvent → Bool)
    (increasing : (events.filter p).Pairwise fun e e' => e.createdAt < e'.createdAt) :
    (events.insertionSort Before).filter p = events.filter p := by
  have same : ((events.insertionSort Before).filter p).Perm (events.filter p) :=
    (List.perm_insertionSort Before events).filter p
  have ordered : ((events.insertionSort Before).filter p).Pairwise
      fun e e' => e.createdAt ≤ e'.createdAt := by
    apply ((List.pairwise_insertionSort Before events).filter p).imp
    intro e e' before
    rcases before with less | ⟨equal, _⟩
    · exact Int.le_of_lt less
    · exact Int.le_of_eq equal
  exact Lib.eq_of_perm_of_increasing same ordered increasing

end SqlAlchemyCaseRepository

end SupplierAssurance
