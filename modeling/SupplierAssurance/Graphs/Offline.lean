import SupplierAssurance.Graphs.Run
import SupplierAssurance.ModelGateway.Citations

/-! # A review by `DeterministicBackend`

The decision of the whole workflow, from the documents: the rules that fire are determined by
which terms some single document mentions, their severities are those of the findings, and the
synthesis decides by the worst of them.  Nothing else of the case is read.
-/

namespace SupplierAssurance.Graphs

open Python Lib ModelGateway

/-- The workflow with `DeterministicBackend`; its outputs are validated against the response
    model of the request. -/
def deterministicServices (case_ : LowerCase) (now : Datetime) (clock : ReviewNode → Datetime)
    (order : MergeOrder ReviewNode) : Services where
  name := "deterministic"
  review request :=
    match generate case_ request with
    | .findingBatch batch => .ok batch.findings
    | .recommendation _ => .error "ValidationError"
  synthesize request :=
    match generate case_ request with
    | .findingBatch _ => .error "ValidationError"
    | .recommendation recommendation => .ok recommendation
  now := now
  clock := clock
  order := order

/-- A document mentions one of the terms. -/
def AnyMentions (case_ : LowerCase) (documents : List DocumentInput) (terms : List String) : Prop :=
  ∃ document ∈ documents, ∃ term ∈ terms, Mentions case_ document term

/-- A rule emits a finding. -/
def Fires (case_ : LowerCase) (documents : List DocumentInput) (rule : Rule) : Prop :=
  if rule.absence then ¬ AnyMentions case_ documents rule.terms
  else AnyMentions case_ documents rule.terms

section

variable {case_ : LowerCase} {category : RiskCategory} {context : ModelContext} {rule : Rule}

theorem firstTerm_isSome_iff {documents : List DocumentInput} :
    (firstTerm case_ documents rule).isSome ↔ AnyMentions case_ documents rule.terms := by
  rw [firstTerm, List.find?_isSome, AnyMentions]
  simp only [List.any_eq_true, decide_eq_true_eq]
  constructor
  · rintro ⟨term, isTerm, document, member, mentions⟩
    exact ⟨document, member, term, isTerm, mentions⟩
  · rintro ⟨document, member, term, isTerm, mentions⟩
    exact ⟨term, isTerm, document, member, mentions⟩

theorem severity_of_applyRule {found : Finding}
    (emitted : applyRule case_ category context rule = some found) :
    found.severity = rule.severity := by
  simp only [applyRule] at emitted
  split at emitted
  · cases emitted
  · split at emitted <;> cases emitted
    rfl

theorem applyRule_isSome_iff (isRule : rule ∈ rules category) :
    (∃ found, applyRule case_ category context rule = some found) ↔
      Fires case_ context.documents rule := by
  cases absence : rule.absence with
  | true =>
    simp only [applyRule_absence isRule absence, Fires, absence, if_true, ← firstTerm_isSome_iff]
    simp
  | false =>
    simp only [applyRule_presence isRule absence, Fires, absence, Bool.false_eq_true, if_false,
      ← firstTerm_isSome_iff, Option.isSome_iff_exists]
    constructor
    · rintro ⟨_, term, _, first, _⟩
      exact ⟨term, first⟩
    · rintro ⟨term, first⟩
      obtain ⟨document, _, isFirst⟩ := exists_firstDocument first
      exact ⟨_, term, document, first, isFirst, rfl⟩

/-- The severities of the findings are those of the rules that fire. -/
theorem review_severity_iff {severity : Severity} :
    (∃ found ∈ review case_ category context, found.severity = severity) ↔
      ∃ rule ∈ rules category, rule.severity = severity ∧ Fires case_ context.documents rule := by
  constructor
  · rintro ⟨found, member, rfl⟩
    obtain ⟨rule, isRule, emitted⟩ := mem_review_iff.mp member
    exact ⟨rule, isRule, (severity_of_applyRule emitted).symm,
      (applyRule_isSome_iff isRule).mp ⟨found, emitted⟩⟩
  · rintro ⟨rule, isRule, rfl, fires⟩
    obtain ⟨found, emitted⟩ := (applyRule_isSome_iff isRule).mpr fires
    exact ⟨found, mem_review_iff.mpr ⟨rule, isRule, emitted⟩, severity_of_applyRule emitted⟩

/-! ## The synthesis -/

theorem decisionFor_eq_escalate_iff (findings : List Finding) :
    decisionFor findings = .escalate ↔ ∃ found ∈ findings, found.severity = .critical := by
  simp only [decisionFor]
  split
  next critical => simpa using critical
  next critical =>
    constructor
    · intro decided
      split at decided <;> cases decided
    · intro found
      exact absurd (by simpa using found) critical

theorem decisionFor_eq_remediate_iff (findings : List Finding) :
    decisionFor findings = .remediate ↔ (¬ ∃ found ∈ findings, found.severity = .critical) ∧
      ((∃ found ∈ findings, found.severity = .high) ∨ ∃ found ∈ findings, found.severity = .medium) := by
  simp only [decisionFor]
  split
  next critical =>
    simp only [reduceCtorEq, false_iff, not_and]
    intro none_
    exact absurd (by simpa using critical) none_
  next critical =>
    have none_ : ¬ ∃ found ∈ findings, found.severity = .critical := by simpa using critical
    simp only [none_, not_false_eq_true, true_and]
    split
    next found => simpa using found
    next found => simpa using found

theorem decisionFor_approve_or (findings : List Finding) :
    decisionFor findings = .approve ∨ decisionFor findings = .remediate ∨
      decisionFor findings = .escalate := by
  simp only [decisionFor]
  split
  · exact .inr (.inr rfl)
  · split
    · exact .inr (.inl rfl)
    · exact .inl rfl

end

/-! ## The run -/

section

variable (case_ : LowerCase) (schemas : JsonSchemas) (now : Datetime) (clock : ReviewNode → Datetime)
  (order : MergeOrder ReviewNode) (supplierCase : SupplierCase) (executionId : UUID)

/-- The context of the specialists. -/
def reviewContext (supplierCase : SupplierCase) : ModelContext :=
  .review supplierCase.id supplierCase.supplierName supplierCase.documents

/-- The findings of a run. -/
def offlineFindings : List Finding :=
  reviewFindings schemas (deterministicServices case_ now clock order)
    (startInput (deterministicServices case_ now clock order) supplierCase executionId false)

theorem offlineFindings_perm :
    (offlineFindings case_ schemas now clock order supplierCase executionId).Perm
      ((review case_ .security (reviewContext supplierCase) ++
        review case_ .legal (reviewContext supplierCase) ++
        review case_ .financial (reviewContext supplierCase)).map (storedFinding executionId)) := by
  let services := deterministicServices case_ now clock order
  have batch {task : ModelTask} {category : RiskCategory} (ofTask : task.category? = some category) :
      rawBatch schemas services (startInput services supplierCase executionId false) task =
          review case_ category (reviewContext supplierCase) := by
    simp only [services, rawBatch, deterministicServices, generate, specialistRequest, modelRequest,
      ofTask]
    rfl
  have security := batch (show ModelTask.securityReview.category? = some .security from rfl)
  have legal := batch (show ModelTask.legalReview.category? = some .legal from rfl)
  have financial := batch (show ModelTask.financialReview.category? = some .financial from rfl)
  have batches : (ModelTask.specialists.flatMap fun task =>
      (rawBatch schemas services (startInput services supplierCase executionId false) task).map
        (storedFinding executionId)) =
      (review case_ .security (reviewContext supplierCase) ++
        review case_ .legal (reviewContext supplierCase) ++
        review case_ .financial (reviewContext supplierCase)).map (storedFinding executionId) := by
    simp only [ModelTask.specialists, List.flatMap_cons, List.flatMap_nil, List.append_nil,
      List.map_append, List.append_assoc, security, legal, financial]
  rw [← batches]
  exact services.specialists_perm.flatMap_right _

/-- Every run completes, with the synthesis of its findings. -/
theorem run_offline :
    run schemas (deterministicServices case_ now clock order) supplierCase executionId = .ok {
      reviewId := executionId
      caseId := supplierCase.id
      findings := offlineFindings case_ schemas now clock order supplierCase executionId
      recommendation := synthesize (.synthesis
        (offlineFindings case_ schemas now clock order supplierCase executionId) none)
      modelBackend := "deterministic"
      startedAt := now
      completedAt := clock .synthesize } := by
  refine run_completed ?_ ?_
  · intro node specialist
    simp only [specialistNodes, List.mem_cons, List.not_mem_nil, or_false] at specialist
    rcases specialist with rfl | rfl | rfl <;> rfl
  · have synthesized (state : ReviewGraphState) :
        (deterministicServices case_ now clock order).synthesize (synthesisRequest schemas state) =
          .ok (synthesize (.synthesis state.findings state.evidenceConfirmation)) := rfl
    rw [synthesized]
    have gathered : (reviewedState schemas (deterministicServices case_ now clock order)
        (startInput (deterministicServices case_ now clock order) supplierCase executionId false)).findings =
          offlineFindings case_ schemas now clock order supplierCase executionId := List.nil_append _
    have unasked : (reviewedState schemas (deterministicServices case_ now clock order)
        (startInput (deterministicServices case_ now clock order) supplierCase executionId
          false)).evidenceConfirmation = none := rfl
    rw [gathered, unasked]

variable {case_ schemas now clock order supplierCase executionId}

theorem exists_category {p : RiskCategory → Prop} :
    (∃ category, p category) ↔ p .security ∨ p .legal ∨ p .financial := by
  constructor
  · rintro ⟨category, holds⟩
    cases category with
    | security => exact .inl holds
    | legal => exact .inr (.inl holds)
    | financial => exact .inr (.inr holds)
  · rintro (holds | holds | holds)
    · exact ⟨_, holds⟩
    · exact ⟨_, holds⟩
    · exact ⟨_, holds⟩

theorem offlineFindings_severity_iff {severity : Severity} :
    (∃ found ∈ offlineFindings case_ schemas now clock order supplierCase executionId,
        found.severity = severity) ↔
      ∃ category, ∃ rule ∈ rules category, rule.severity = severity ∧
        Fires case_ supplierCase.documents rule := by
  have merged := offlineFindings_perm case_ schemas now clock order supplierCase executionId
  simp only [merged.mem_iff, List.mem_map, exists_exists_and_eq_and, storedFinding, List.mem_append,
    or_assoc, or_and_right, exists_or, review_severity_iff, exists_category]
  rfl

end

/-! ## The decision -/

def escalationTerms : List String := ["shared credentials", "shared password"]

def remediationTerms : List String :=
  ["unlimited liability", "automatic renewal", "auto-renewal", "going concern", "negative cash flow"]

def assuranceTerms : List String := ["soc 2", "iso 27001"]

section

variable {case_ : LowerCase} {documents documents' : List DocumentInput}

theorem anyMentions_append {terms terms' : List String} :
    AnyMentions case_ documents (terms ++ terms') ↔
      AnyMentions case_ documents terms ∨ AnyMentions case_ documents terms' := by
  simp only [AnyMentions, List.mem_append, or_and_right, exists_or, and_or_left]

/-- Some rule of the severity fires. -/
def FiresAt (case_ : LowerCase) (documents : List DocumentInput) (severity : Severity) : Prop :=
  ∃ category, ∃ rule ∈ rules category, rule.severity = severity ∧ Fires case_ documents rule

theorem firesAt_critical : FiresAt case_ documents .critical ↔
    AnyMentions case_ documents escalationTerms := by
  simp [FiresAt, exists_category, rules, Fires, escalationTerms]

theorem firesAt_high : FiresAt case_ documents .high ↔
    AnyMentions case_ documents ["unlimited liability"] ∨
      AnyMentions case_ documents ["going concern", "negative cash flow"] := by
  simp [FiresAt, exists_category, rules, Fires]

theorem firesAt_medium : FiresAt case_ documents .medium ↔
    ¬ AnyMentions case_ documents assuranceTerms ∨
      AnyMentions case_ documents ["automatic renewal", "auto-renewal"] := by
  simp [FiresAt, exists_category, rules, Fires, assuranceTerms]

theorem firesAt_high_or_medium :
    FiresAt case_ documents .high ∨ FiresAt case_ documents .medium ↔
      AnyMentions case_ documents remediationTerms ∨ ¬ AnyMentions case_ documents assuranceTerms := by
  have terms : remediationTerms = ["unlimited liability"] ++ ["automatic renewal", "auto-renewal"] ++
      ["going concern", "negative cash flow"] := rfl
  rw [firesAt_high, firesAt_medium, terms, anyMentions_append, anyMentions_append]
  tauto

theorem anyMentions_congr {terms : List String}
    (same : ∀ term ∈ terms, (∃ document ∈ documents, Mentions case_ document term) ↔
      ∃ document ∈ documents', Mentions case_ document term) :
    AnyMentions case_ documents terms ↔ AnyMentions case_ documents' terms := by
  constructor
  · rintro ⟨document, member, term, isTerm, mentions⟩
    obtain ⟨document', member', mentions'⟩ := (same term isTerm).mp ⟨document, member, mentions⟩
    exact ⟨document', member', term, isTerm, mentions'⟩
  · rintro ⟨document, member, term, isTerm, mentions⟩
    obtain ⟨document', member', mentions'⟩ := (same term isTerm).mpr ⟨document, member, mentions⟩
    exact ⟨document', member', term, isTerm, mentions'⟩

end

/-- The decision that the terms mentioned by single documents call for. -/
def Calls (case_ : LowerCase) (documents : List DocumentInput) : Decision → Prop
  | .escalate => AnyMentions case_ documents escalationTerms
  | .remediate => ¬ AnyMentions case_ documents escalationTerms ∧
    (AnyMentions case_ documents remediationTerms ∨ ¬ AnyMentions case_ documents assuranceTerms)
  | .approve => ¬ AnyMentions case_ documents escalationTerms ∧
    ¬ AnyMentions case_ documents remediationTerms ∧ AnyMentions case_ documents assuranceTerms
  | .reject => False

/-- Documents that mention the same terms call for the same decision. -/
theorem calls_congr {case_ : LowerCase} {documents documents' : List DocumentInput}
    (same : ∀ term ∈ escalationTerms ++ remediationTerms ++ assuranceTerms,
      (∃ document ∈ documents, Mentions case_ document term) ↔
        ∃ document ∈ documents', Mentions case_ document term) (decision : Decision) :
    Calls case_ documents decision ↔ Calls case_ documents' decision := by
  have escalation : AnyMentions case_ documents escalationTerms ↔
      AnyMentions case_ documents' escalationTerms :=
    anyMentions_congr fun term isTerm => same term (by simp [isTerm])
  have remediation : AnyMentions case_ documents remediationTerms ↔
      AnyMentions case_ documents' remediationTerms :=
    anyMentions_congr fun term isTerm => same term (by simp [isTerm])
  have assurance : AnyMentions case_ documents assuranceTerms ↔
      AnyMentions case_ documents' assuranceTerms :=
    anyMentions_congr fun term isTerm => same term (by simp [isTerm])
  cases decision <;> simp only [Calls, escalation, remediation, assurance]

/-- The synthesis of the findings decides what the documents call for. -/
theorem decisionFor_offlineFindings_iff (case_ : LowerCase) (schemas : JsonSchemas) (now : Datetime)
    (clock : ReviewNode → Datetime) (order : MergeOrder ReviewNode) (supplierCase : SupplierCase)
    (executionId : UUID) (decision : Decision) :
    decisionFor (offlineFindings case_ schemas now clock order supplierCase executionId) = decision ↔
      Calls case_ supplierCase.documents decision := by
  have escalate := decisionFor_eq_escalate_iff
    (offlineFindings case_ schemas now clock order supplierCase executionId)
  have remediate := decisionFor_eq_remediate_iff
    (offlineFindings case_ schemas now clock order supplierCase executionId)
  simp only [offlineFindings_severity_iff] at escalate remediate
  change _ ↔ FiresAt case_ supplierCase.documents .critical at escalate
  change _ ↔ ¬ FiresAt case_ supplierCase.documents .critical ∧
    (FiresAt case_ supplierCase.documents .high ∨ FiresAt case_ supplierCase.documents .medium)
    at remediate
  rw [firesAt_critical] at escalate remediate
  rw [firesAt_high_or_medium] at remediate
  have one := decisionFor_approve_or
    (offlineFindings case_ schemas now clock order supplierCase executionId)
  cases decision with
  | escalate => exact escalate
  | remediate => exact remediate
  -- the offline synthesis never rejects
  | reject =>
    simp only [Calls, iff_false]
    rcases one with decided | decided | decided <;> rw [decided] <;> decide
  | approve =>
    simp only [Calls]
    constructor
    · intro approved
      rw [approved] at escalate remediate
      simp only [reduceCtorEq, false_iff] at escalate remediate
      tauto
    · rintro ⟨noEscalation, noRemediation, assured⟩
      rcases one with decided | decided | decided
      · exact decided
      · have := remediate.mp decided
        tauto
      · exact absurd (escalate.mp decided) noEscalation

/-- For all documents: the run completes, escalates, remediates or approves by the terms that
    single documents mention, and any other run over documents that mention the same of these
    terms decides alike — whatever their titles, order and other text, and whatever else the
    other case says. -/
theorem run_offline_decision (case_ : LowerCase) (schemas : JsonSchemas) (now : Datetime)
    (clock : ReviewNode → Datetime) (order : MergeOrder ReviewNode) (supplierCase : SupplierCase)
    (executionId : UUID) :
    ∃ result, run schemas (deterministicServices case_ now clock order) supplierCase executionId =
        .ok result ∧
      (result.recommendation.decision = .escalate ↔
        AnyMentions case_ supplierCase.documents escalationTerms) ∧
      (result.recommendation.decision = .remediate ↔
        ¬ AnyMentions case_ supplierCase.documents escalationTerms ∧
        (AnyMentions case_ supplierCase.documents remediationTerms ∨
          ¬ AnyMentions case_ supplierCase.documents assuranceTerms)) ∧
      (result.recommendation.decision = .approve ↔
        ¬ AnyMentions case_ supplierCase.documents escalationTerms ∧
        ¬ (AnyMentions case_ supplierCase.documents remediationTerms ∨
          ¬ AnyMentions case_ supplierCase.documents assuranceTerms)) ∧
      ∀ (now' : Datetime) (clock' : ReviewNode → Datetime) (order' : MergeOrder ReviewNode)
        (other : SupplierCase) (executionId' : UUID),
        (∀ term ∈ escalationTerms ++ remediationTerms ++ assuranceTerms,
          (∃ document ∈ supplierCase.documents, Mentions case_ document term) ↔
            ∃ document ∈ other.documents, Mentions case_ document term) →
        ∃ result', run schemas (deterministicServices case_ now' clock' order') other executionId' =
            .ok result' ∧
          result'.recommendation.decision = result.recommendation.decision := by
  have decides := decisionFor_offlineFindings_iff case_ schemas now clock order supplierCase executionId
  refine ⟨_, run_offline case_ schemas now clock order supplierCase executionId, decides .escalate,
    decides .remediate, ?_, ?_⟩
  · rw [not_or, not_not]
    exact decides .approve
  · intro now' clock' order' other executionId' same
    refine ⟨_, run_offline case_ schemas now' clock' order' other executionId', ?_⟩
    have called := (calls_congr same _).mp ((decides _).mp rfl)
    exact (decisionFor_offlineFindings_iff case_ schemas now' clock' order' other executionId' _).mpr called

end SupplierAssurance.Graphs
