import SupplierAssurance.Api.Accounting
import SupplierAssurance.Api.Noninterference

/-! # Where an action comes from

Runs of requests to the whole API, by any principals.  In every state of such a run the audit
history accounts for the records, and every governed action can be followed back through the
history of its case: to its proposal, to the completed review that it carries out, to the start of
that review and to the creation of the case, in this order.
-/

namespace SupplierAssurance.Api

open Python Lib Graphs Governance Retrieval

/-! ## What is told of an action -/

/-- The event of the decision on an action, if there was one. -/
def decisions (action : GovernedAction) : List AuditEventCreate :=
  match action.approverId with
  | none => []
  | some approverId => [{
      caseId := action.caseId
      eventType := "action." ++ action.status.value
      actorId := approverId
      payload := [("action_id", .str action.id.str), ("comment", .str action.approvalComment)] }]

/-- Nobody has decided on the action, or somebody else than its proposer has. -/
def DecidedByAnother (action : GovernedAction) : Prop :=
  (action.status = .pendingApproval ∧ action.approverId = none) ∨
    (action.status = .approved ∨ action.status = .rejected) ∧
      ∃ approverId, action.approverId = some approverId ∧ approverId ≠ action.proposerId

/-- The action is to do what the review recommends for its case. -/
structure CarriesOut (action : GovernedAction) (review : ReviewResult) : Prop where
  ofCase : review.caseId = action.caseId
  supplierCaseId : action.arguments.supplierCaseId = action.caseId
  reviewId : action.arguments.reviewId = action.reviewId
  decision : action.arguments.decision = review.recommendation.decision
  rationale : action.arguments.rationale = review.recommendation.rationale
  requiredActions : action.arguments.requiredActions = review.recommendation.requiredActions

structure ActionTold (repo : InMemoryCaseRepository) (action : GovernedAction) : Prop where
  found : ∃ supplierCase, repo.cases action.caseId = some supplierCase ∧
    supplierCase.tenantId = action.tenantId
  decided : DecidedByAnother action
  story : ∃ review started, repo.reviewsById action.reviewId = some review ∧ CarriesOut action review ∧
    Starts action.caseId action.reviewId started ∧
    ([started, reviewCompleted review, proposedEvent action] ++ decisions action).Sublist
      (told (repo.events action.caseId))

/-- Every stored action is told, under its identifier. -/
def ActionsTold (s : ApiState) : Prop :=
  ∀ actionId action, s.actions.actions actionId = some action →
    action.id = actionId ∧ ActionTold s.cases action

theorem ActionTold.extends {repo repo' : InMemoryCaseRepository} {action : GovernedAction}
    (isTold : ActionTold repo action) (extends_ : Extends repo repo') : ActionTold repo' action := by
  obtain ⟨review, started, stored, carriesOut, starts, story⟩ := isTold.story
  exact ⟨extends_.found isTold.found, isTold.decided, review, started,
    extends_.reviews _ _ stored, carriesOut, starts, story.trans (extends_.told _).sublist⟩

section

variable {s s' : ApiState} {draws : Draws} {principal : Principal} {caseId actionId : UUID}
variable {supplierCase : SupplierCase} {review : ReviewResult} {action decided : GovernedAction}
variable {proposal : ActionProposalRequest} {request : ApprovalRequest} {now : Datetime}

theorem ActionsTold.extends (isTold : ActionsTold s) (extends_ : Extends s.cases s'.cases)
    (same : s'.actions = s.actions) : ActionsTold s' := by
  intro actionId action stored
  rw [same] at stored
  obtain ⟨sameId, action_⟩ := isTold actionId action stored
  exact ⟨sameId, action_.extends extends_⟩

/-- An action and its event are stored together. -/
theorem ActionsTold.stores (isTold : ActionsTold s) {event : AuditEventCreate} {ambient : Ambient}
    {actions : InMemoryActionRepository}
    (placed : actions.actions = Function.update s.actions.actions action.id (some action))
    (new : ActionTold (s.cases.logged ambient event) action) :
    ActionsTold { s with actions, cases := s.cases.logged ambient event } := by
  intro actionId stored isStored
  simp only [placed] at isStored
  by_cases here : actionId = action.id
  · subst here
    rw [Function.update_self, Option.some.injEq] at isStored
    subst isStored
    exact ⟨rfl, new⟩
  · rw [Function.update_of_ne here] at isStored
    obtain ⟨sameId, old⟩ := isTold actionId stored isStored
    exact ⟨sameId, old.extends (extends_logged _ _ _)⟩

/-! ## `propose_case_action` -/

/-- The action that `propose` derives from a review of the case. -/
theorem carriesOut_of_prepared
    (prepared : prepareAction ⟨supplierCase, review, proposal, principal⟩ now = .ok action) :
    CarriesOut action review ∧ action.caseId = supplierCase.id ∧
      action.tenantId = supplierCase.tenantId ∧ action.reviewId = review.reviewId ∧
      action.status = .pendingApproval ∧ action.approverId = none := by
  obtain ⟨_, _, belongs, _⟩ := prepareAction_ok prepared
  have built : buildAction ⟨supplierCase, review, proposal, principal⟩ now = some action := by
    simp only [prepareAction, bind, Except.bind] at prepared
    split at prepared
    · cases prepared
    · split at prepared
      · cases prepared
      · cases isBuilt : buildAction ⟨supplierCase, review, proposal, principal⟩ now <;>
          simp_all [throw, throwThe, MonadExceptOf.throw, pure, Except.pure]
  obtain ⟨arguments, valid, rfl⟩ := Option.map_eq_some_iff.mp built
  unfold SupplierDecisionArguments.validate? at valid
  split at valid
  · cases valid
    exact ⟨⟨belongs, rfl, rfl, rfl, rfl, rfl⟩, rfl, rfl, rfl, rfl, rfl⟩
  · cases valid

theorem latest_mem {repo : InMemoryCaseRepository} (found : repo.cases caseId = some supplierCase)
    (latest : repo.getLatestReview caseId = .ok review) : review ∈ repo.reviews caseId := by
  simp only [InMemoryCaseRepository.getLatestReview, InMemoryCaseRepository.get, found] at latest
  split at latest
  · cases latest
  next last =>
    cases latest
    exact List.mem_of_getLast? last

variable (draws principal) in
/-- `propose_case_action` writes nothing, or a new action on the latest review of the case with its
    event. -/
theorem proposeCaseAction_writes (keyed : ∀ caseId supplierCase, s.cases.cases caseId = some supplierCase →
      supplierCase.id = caseId) (proposal : ActionProposalRequest) :
    (proposeCaseAction draws s caseId proposal principal).1 = s ∨
    ∃ supplierCase review action, s.cases.cases caseId = some supplierCase ∧
      review ∈ s.cases.reviews caseId ∧
      prepareAction ⟨supplierCase, review, proposal, principal⟩ (draws.ambient 0).now = .ok action ∧
      (proposeCaseAction draws s caseId proposal principal).1 = { s with
        actions := s.actions.storeProposal (startedAction principal proposal action)
        cases := s.cases.logged (draws.ambient 1)
          (proposedEvent (startedAction principal proposal action)) } := by
  cases ok : getAuthorizedCase s.cases caseId principal with
  | error e =>
    left
    simp only [proposeCaseAction, ok]
  | ok supplierCase =>
    have found := getAuthorizedCase_found ok
    cases reviewed : s.cases.getLatestReview caseId with
    | error e =>
      left
      cases e <;> simp only [proposeCaseAction, ok, reviewed]
    | ok review =>
      cases prepared : prepareAction ⟨supplierCase, review, proposal, principal⟩
          (draws.ambient 0).now with
      | error e =>
        left
        rw [proposeCaseAction_refused ok reviewed prepared]
      | ok action =>
        have isFor := proposedFor_of_prepared prepared
        have started := prepareProposal_started prepared
        generalize isStarted : startedAction principal proposal action = new at isFor started
        cases indexed : s.actions.idempotency new.tenantKey with
        | some existingId =>
          left
          obtain ⟨answer, created⟩ : ∃ answer, inMemoryActionRepository.createProposal s.governed new
              (proposedEvent new) (startMessage new) (proposeMoment draws principal proposal).ambient =
              (s.governed, answer) := by
            cases existing : s.actions.actions existingId <;>
              simp [inMemoryActionRepository, InMemoryActionRepository.createProposal,
                ApiState.governed, indexed, existing]
          simp only [proposeCaseAction, ok, reviewed, GovernanceService.propose, started, created]
          cases answer <;> rfl
        | none =>
          right
          refine ⟨supplierCase, review, action, found, latest_mem found reviewed, prepared, ?_⟩
          have found' : s.cases.cases (proposedEvent new).caseId = some supplierCase := by
            have sameCase : (proposedEvent new).caseId = supplierCase.id := isFor.caseId
            rw [sameCase, keyed caseId supplierCase found]
            exact found
          have created : inMemoryActionRepository.createProposal s.governed new (proposedEvent new)
              (startMessage new) (proposeMoment draws principal proposal).ambient =
              (⟨s.actions.storeProposal new, s.cases.logged (draws.ambient 1) (proposedEvent new)⟩,
                .ok (new, true)) := by
            simp [inMemoryActionRepository, InMemoryActionRepository.createProposal,
              ApiState.governed, proposeMoment, indexed,
              InMemoryCaseRepository.appendAuditEvent_found found']
          rw [isStarted]
          simp only [proposeCaseAction, ok, reviewed, GovernanceService.propose, started, created]

variable (draws principal caseId proposal) in
theorem proposeCaseAction_told (accounted : Accounted none s.app) (isTold : ActionsTold s) :
    Accounted none (proposeCaseAction draws s caseId proposal principal).1.app ∧
      Extends s.cases (proposeCaseAction draws s caseId proposal principal).1.cases ∧
      ActionsTold (proposeCaseAction draws s caseId proposal principal).1 := by
  cases proposeCaseAction_writes draws principal accounted.cases.keyed proposal with
  | inl unchanged =>
    rw [unchanged]
    exact ⟨accounted, .refl _, isTold⟩
  | inr wrote =>
    obtain ⟨supplierCase, review, action, found, member, prepared, written⟩ := wrote
    obtain ⟨carriesOut, ofCase, ofTenant, ofReview, pending, undecided⟩ := carriesOut_of_prepared prepared
    rw [written]
    generalize isNew : startedAction principal proposal action = new
    have new_ : new.caseId = caseId ∧ new.tenantId = supplierCase.tenantId ∧
        new.reviewId = review.reviewId ∧ CarriesOut new review ∧ new.status = .pendingApproval ∧
        new.approverId = none := by
      subst isNew
      have sameId := accounted.cases.keyed caseId supplierCase found
      exact ⟨ofCase.trans sameId, ofTenant, ofReview, ⟨carriesOut.ofCase, carriesOut.supplierCaseId,
        carriesOut.reviewId, carriesOut.decision, carriesOut.rationale, carriesOut.requiredActions⟩,
        pending, undecided⟩
    obtain ⟨newCase, newTenant, newReview, newArguments, newStatus, newApprover⟩ := new_
    subst newCase
    have extends_ := extends_logged s.cases (draws.ambient 1) (proposedEvent new)
    have onCase : s.cases.cases (proposedEvent new).caseId = some supplierCase := found
    refine ⟨accounted.logs onCase rfl, extends_, isTold.stores rfl ⟨?_, .inl ⟨newStatus, newApprover⟩, ?_⟩⟩
    · exact extends_.found ⟨supplierCase, found, newTenant.symm⟩
    · obtain ⟨isCase, stored⟩ := (accounted.filed new.caseId review).mp member
      obtain ⟨started, starts, story⟩ := (accounted.recorded _ review stored).story
      have sameCase : new.caseId = (proposedEvent new).caseId := rfl
      have undecided : decisions new = [] := by simp [decisions, newApprover]
      rw [isCase] at story starts
      refine ⟨review, started, by rw [newReview]; exact stored, newArguments, by rwa [newReview], ?_⟩
      rw [told_logged, if_pos sameCase, undecided, List.append_nil]
      exact story.append (List.Sublist.refl [proposedEvent new])

/-! ## `decide_action` -/

variable (draws principal) in
/-- `decide_action` writes nothing, or the decision with its event. -/
theorem decideAction_writes (isTold : ActionsTold s) (actionId : UUID) (request : ApprovalRequest) :
    (decideAction draws s actionId request principal).1 = s ∨
    ∃ action decided, s.actions.actions actionId = some action ∧
      judge action request principal (draws.ambient 0).now = .ok decided ∧
      (decideAction draws s actionId request principal).1 = { s with
        actions := s.actions.setAction actionId decided
        cases := s.cases.logged (draws.ambient 1) (decidedEvent decided principal) } := by
  cases approver : principal.hasRole .approver with
  | false =>
    left
    rw [decideAction_unentitled approver]
  | true =>
    cases stored : s.actions.actions actionId with
    | none =>
      left
      rw [decideAction_unknown approver stored]
    | some action =>
      have prepared := prepareDecision_found request approver stored (draws.ambient 0).now
      cases judged : judge action request principal (draws.ambient 0).now with
      | error e =>
        left
        rw [judged] at prepared
        rw [decideAction_refused prepared]
      | ok decided =>
        right
        rw [judged] at prepared
        refine ⟨action, decided, rfl, judged, ?_⟩
        obtain ⟨sameId, action_⟩ := isTold actionId action stored
        obtain ⟨supplierCase, found, _⟩ := action_.found
        obtain ⟨_, _, pending, isDecided⟩ := judge_ok judged
        have found' : s.cases.cases (decidedEvent decided principal).caseId = some supplierCase := by
          rw [isDecided]
          exact found
        have sameId' : decided.id = actionId := by
          rw [isDecided]
          exact sameId
        have checked : s.actions.checkTransition decided .pendingApproval = .ok action := by
          simp [InMemoryActionRepository.checkTransition, sameId', stored, pending]
        have saved : inMemoryActionRepository.saveTransition s.governed decided
            (decidedEvent decided principal) .pendingApproval (draws.ambient 1) =
            (⟨s.actions.setAction actionId decided,
              s.cases.logged (draws.ambient 1) (decidedEvent decided principal)⟩, .ok ()) := by
          simp [inMemoryActionRepository, ApiState.governed, checked, sameId',
            InMemoryCaseRepository.appendAuditEvent_found found']
        simp only [decideAction, GovernanceService.decide, decideMoment, prepared, saved]

/-- A decision says nothing of the status of the case. -/
theorem decided_silent (judged : judge action request principal now = .ok decided) :
    eventStatus (decidedEvent decided principal).eventType = none := by
  obtain ⟨_, _, _, isDecided⟩ := judge_ok judged
  rw [isDecided]
  cases request with
  | mk decision => cases decision <;> rfl

variable (draws principal actionId request) in
theorem decideAction_told (accounted : Accounted none s.app) (isTold : ActionsTold s) :
    Accounted none (decideAction draws s actionId request principal).1.app ∧
      Extends s.cases (decideAction draws s actionId request principal).1.cases ∧
      ActionsTold (decideAction draws s actionId request principal).1 := by
  cases decideAction_writes draws principal isTold actionId request with
  | inl unchanged =>
    rw [unchanged]
    exact ⟨accounted, .refl _, isTold⟩
  | inr wrote =>
    obtain ⟨action, decided, stored, judged, written⟩ := wrote
    obtain ⟨sameId, action_⟩ := isTold actionId action stored
    obtain ⟨_, another, pending, isDecided⟩ := judge_ok judged
    obtain ⟨supplierCase, found, isTenant⟩ := action_.found
    have silent := decided_silent judged
    have undecided : decisions action = [] := by
      cases action_.decided with
      | inl open_ => simp [decisions, open_.2]
      | inr closed => simp [pending] at closed
    have decision : decisions decided = [decidedEvent decided principal] := by
      rw [isDecided]
      rfl
    have onCase : s.cases.cases (decidedEvent decided principal).caseId = some supplierCase := by
      rw [isDecided]
      exact found
    have extends_ := extends_logged s.cases (draws.ambient 1) (decidedEvent decided principal)
    have placed : (s.actions.setAction actionId decided).actions =
        Function.update s.actions.actions decided.id (some decided) := by
      rw [isDecided, ← sameId]
      rfl
    rw [written]
    refine ⟨accounted.logs onCase silent, extends_, isTold.stores placed ⟨?_, ?_, ?_⟩⟩
    · rw [isDecided]
      exact extends_.found action_.found
    · right
      rw [isDecided]
      refine ⟨?_, principal.subject, rfl, another.symm⟩
      cases request with
      | mk decision => cases decision <;> simp [decidedStatus]
    · obtain ⟨review, started, isReview, carriesOut, starts, story⟩ := action_.story
      rw [undecided, List.append_nil] at story
      have sameCase : decided.caseId = (decidedEvent decided principal).caseId := rfl
      have kept : decided.caseId = action.caseId ∧ decided.reviewId = action.reviewId ∧
          proposedEvent decided = proposedEvent action ∧ CarriesOut decided review := by
        rw [isDecided]
        exact ⟨rfl, rfl, rfl, ⟨carriesOut.ofCase, carriesOut.supplierCaseId, carriesOut.reviewId,
          carriesOut.decision, carriesOut.rationale, carriesOut.requiredActions⟩⟩
      obtain ⟨keptCase, keptReview, keptEvent, keptArguments⟩ := kept
      refine ⟨review, started, by rw [keptReview]; exact isReview, keptArguments,
        by rwa [keptCase, keptReview], ?_⟩
      rw [told_logged, if_pos sameCase, decision, keptEvent, keptCase]
      exact story.append (List.Sublist.refl _)

/-! ## One request -/

/-- The history accounts for everything that is stored. -/
structure Told (s : ApiState) : Prop where
  accounted : Accounted none s.app
  actions : ActionsTold s

theorem told_empty : Told ApiState.empty := by
  refine ⟨⟨⟨?_, fun _ => rfl, ?_, fun _ _ => rfl⟩, fun _ => rfl, ?_, ?_, ?_, ?_⟩, ?_⟩
  · intro _ _ found
    cases found
  · intro _ _ found
    cases found
  · intro caseId result
    simp [ApiState.app, ApiState.empty]
  · intro _ _ stored
    cases stored
  · intro _ _ stored
    cases stored
  · intro _ _ _ stored
    cases stored
  · intro _ _ stored
    cases stored

variable {schemas : JsonSchemas}

theorem respond_told (told_ : Told s) (endpoint : Endpoint) :
    Told (respond schemas draws s principal endpoint).1 ∧
      Extends s.cases (respond schemas draws s principal endpoint).1.cases := by
  cases endpoint with
  | startReviewExecution caseId key required =>
    obtain ⟨accounted, extends_, same⟩ := process_accounted schemas draws told_.accounted
      (.start caseId key required principal)
    exact ⟨⟨accounted, told_.actions.extends extends_ same⟩, extends_⟩
  | resumeReviewExecution caseId executionId confirmation =>
    obtain ⟨accounted, extends_, same⟩ := process_accounted schemas draws told_.accounted
      (.resume caseId executionId confirmation principal)
    exact ⟨⟨accounted, told_.actions.extends extends_ same⟩, extends_⟩
  | proposeCaseAction caseId proposal =>
    obtain ⟨accounted, extends_, actions⟩ := proposeCaseAction_told draws principal caseId proposal
      told_.accounted told_.actions
    exact ⟨⟨accounted, actions⟩, extends_⟩
  | decideAction actionId request =>
    obtain ⟨accounted, extends_, actions⟩ := decideAction_told draws principal actionId request
      told_.accounted told_.actions
    exact ⟨⟨accounted, actions⟩, extends_⟩
  | getCase | getReviewExecution | getLatestReview | listAuditEvents | getAction =>
    exact ⟨told_, .refl _⟩

end

/-! ## Indexing -/

section

variable {ε V R : Type} {server server' : Server R} {caseId : UUID}

/-- Neither what was indexed before nor the status of the case matters to its chunks. -/
theorem chunkDocuments_congr {service service' : InMemoryRetrievalService ε V}
    (chunker : service'.chunker = service.chunker) {supplierCase supplierCase' : SupplierCase}
    (sameId : supplierCase'.id = supplierCase.id) (fuel position : Nat) (chunks : List Sourced)
    (documents : List DocumentInput) :
    service'.chunkDocuments fuel supplierCase' position chunks documents =
      service.chunkDocuments fuel supplierCase position chunks documents := by
  induction documents generalizing position chunks with
  | nil => rfl
  | cons document rest ih =>
    have sameRequest : InMemoryRetrievalService.request supplierCase' position document =
        InMemoryRetrievalService.request supplierCase position document := by
      simp [InMemoryRetrievalService.request, documentId, sameId]
    simp only [InMemoryRetrievalService.chunkDocuments, chunker, sameRequest, ih]

theorem caseChunks_congr {service service' : InMemoryRetrievalService ε V}
    (chunker : service'.chunker = service.chunker) {supplierCase supplierCase' : SupplierCase}
    (sameId : supplierCase'.id = supplierCase.id)
    (documents : supplierCase'.documents = supplierCase.documents) (fuel : Nat) :
    service'.caseChunks fuel supplierCase' = service.caseChunks fuel supplierCase := by
  rw [InMemoryRetrievalService.caseChunks, InMemoryRetrievalService.caseChunks, documents]
  exact chunkDocuments_congr chunker sameId fuel 0 [] supplierCase.documents

/-- `items` are the chunks of all documents of the case, and an event has their number. -/
def ItemsTold (server : Server R) (caseId : UUID) (items : List (IndexedChunk (List R))) : Prop :=
  ∃ supplierCase fuel chunks vectors, server.state.cases.cases caseId = some supplierCase ∧
    server.retrieval.caseChunks fuel supplierCase = some chunks ∧ chunks.length = vectors.length ∧
    items = InMemoryRetrievalService.indexed chunks vectors ∧
    documentsIndexed caseId ⟨caseId, supplierCase.documents.length, chunks.length,
      server.retrieval.embeddings.name⟩ ∈ told (server.state.cases.events caseId)

/-- What cases are searched by is told. -/
def IndexTold (server : Server R) : Prop :=
  ∀ caseId items, server.retrieval.chunks caseId = some items → ItemsTold server caseId items

theorem ItemsTold.extends {items : List (IndexedChunk (List R))} (isTold : ItemsTold server caseId items)
    (extends_ : Extends server.state.cases server'.state.cases)
    (chunker : server'.retrieval.chunker = server.retrieval.chunker)
    (name : server'.retrieval.embeddings.name = server.retrieval.embeddings.name) :
    ItemsTold server' caseId items := by
  obtain ⟨supplierCase, fuel, chunks, vectors, found, ended, lengths, isItems, member⟩ := isTold
  obtain ⟨status, updatedAt, found'⟩ := extends_.cases caseId supplierCase found
  refine ⟨_, fuel, chunks, vectors, found', ?_, lengths, isItems, ?_⟩
  · rw [← ended]
    apply caseChunks_congr chunker <;> rfl
  · rw [name]
    exact (extends_.told caseId).subset member

/-- The index stays. -/
theorem IndexTold.extends (isTold : IndexTold server)
    (extends_ : Extends server.state.cases server'.state.cases)
    (chunks : server'.retrieval.chunks = server.retrieval.chunks)
    (chunker : server'.retrieval.chunker = server.retrieval.chunker)
    (name : server'.retrieval.embeddings.name = server.retrieval.embeddings.name) : IndexTold server' := by
  intro caseId items stored
  rw [chunks] at stored
  exact (isTold caseId items stored).extends extends_ chunker name

/-- `index_case_documents` writes nothing, or the chunks of the case with their event. -/
theorem indexCaseDocuments_writes {principal : Principal} {ambient : Ambient} {fuel : Nat}
    {answer : Except ApiError IndexResult}
    (keyed : ∀ caseId supplierCase, server.state.cases.cases caseId = some supplierCase →
      supplierCase.id = caseId)
    (answered : server.indexCaseDocuments caseId principal ambient fuel = some (server', answer)) :
    server' = server ∨
    ∃ supplierCase chunks vectors, server.state.cases.cases caseId = some supplierCase ∧
      server.retrieval.caseChunks fuel supplierCase = some chunks ∧ chunks.length = vectors.length ∧
      server' = {
        state := { server.state with
          cases := server.state.cases.logged ambient (documentsIndexed caseId ⟨caseId,
            supplierCase.documents.length, chunks.length, server.retrieval.embeddings.name⟩) }
        retrieval := { server.retrieval with
          chunks := Function.update server.retrieval.chunks caseId
            (some (InMemoryRetrievalService.indexed chunks vectors)) } } := by
  cases ok : authorize server.state.cases caseId principal with
  | error e =>
    left
    simp only [Server.indexCaseDocuments, ok, Option.some.injEq, Prod.mk.injEq] at answered
    exact answered.1.symm
  | ok supplierCase =>
    have found := getAuthorizedCase_found (authorize_ok ok)
    have sameId := keyed caseId supplierCase found
    simp only [Server.indexCaseDocuments, ok, Option.map_eq_some_iff] at answered
    obtain ⟨outcome, indexed, isAnswer⟩ := answered
    obtain ⟨chunks, ended, isOutcome⟩ := Option.map_eq_some_iff.mp indexed
    cases embedded : server.retrieval.embeddings.embed (chunks.map fun item => item.1.content) with
    | error raised =>
      left
      simp only [embedded] at isOutcome
      subst isOutcome
      exact (Prod.mk.inj isAnswer).1.symm
    | ok vectors =>
      simp only [embedded] at isOutcome
      by_cases lengths : chunks.length = vectors.length
      · right
        rw [if_neg (not_not.mpr lengths)] at isOutcome
        subst isOutcome
        refine ⟨supplierCase, chunks, vectors, found, ended, lengths, ?_⟩
        have logs : (documentsIndexed caseId ⟨caseId, supplierCase.documents.length, chunks.length,
            server.retrieval.embeddings.name⟩).caseId = caseId := rfl
        simp only [sameId] at isAnswer
        rw [ApiState.write_event (logs.symm ▸ found)] at isAnswer
        exact (Prod.mk.inj isAnswer).1.symm
      · left
        rw [if_pos lengths] at isOutcome
        subst isOutcome
        exact (Prod.mk.inj isAnswer).1.symm

/-! ## One request to the server -/

structure Server.Told (server : Server R) : Prop where
  state : Api.Told server.state
  index : IndexTold server

theorem indexCaseDocuments_told {principal : Principal} {ambient : Ambient} {fuel : Nat}
    {answer : Except ApiError IndexResult} (isTold : server.Told)
    (answered : server.indexCaseDocuments caseId principal ambient fuel = some (server', answer)) :
    server'.Told ∧ Extends server.state.cases server'.state.cases := by
  cases indexCaseDocuments_writes isTold.state.accounted.cases.keyed answered with
  | inl unchanged =>
    subst unchanged
    exact ⟨isTold, .refl _⟩
  | inr wrote =>
    obtain ⟨supplierCase, chunks, vectors, found, ended, lengths, written⟩ := wrote
    generalize isEvent : documentsIndexed caseId ⟨caseId, supplierCase.documents.length, chunks.length,
      server.retrieval.embeddings.name⟩ = event at written
    have ofCase : event.caseId = caseId := by
      rw [← isEvent]
      rfl
    have silent : eventStatus event.eventType = none := by
      rw [← isEvent]
      rfl
    have extends_ : Extends server.state.cases server'.state.cases := by
      rw [written]
      exact extends_logged _ _ _
    have accounted : Accounted none server'.state.app := by
      rw [written]
      exact isTold.state.accounted.logs (ofCase.symm ▸ found) silent
    have sameActions : server'.state.actions = server.state.actions := by rw [written]
    refine ⟨⟨⟨accounted, isTold.state.actions.extends extends_ sameActions⟩, ?_⟩, extends_⟩
    intro other items stored
    by_cases here : other = caseId
    · subst here
      simp only [written, Function.update_self, Option.some.injEq] at stored
      have sameChunks : server'.retrieval.caseChunks fuel supplierCase = some chunks := by
        rw [← ended, written]
        apply caseChunks_congr <;> rfl
      have sameCases : server'.state.cases.cases other = some supplierCase := by
        rw [written]
        exact found
      refine ⟨supplierCase, fuel, chunks, vectors, sameCases, sameChunks, lengths, stored.symm, ?_⟩
      simp only [written, isEvent, told_logged]
      simp [ofCase]
    · simp only [written, Function.update_of_ne here] at stored
      have sameChunker : server'.retrieval.chunker = server.retrieval.chunker := by rw [written]
      have sameName : server'.retrieval.embeddings.name = server.retrieval.embeddings.name := by rw [written]
      exact (isTold.index other items stored).extends extends_ sameChunker sameName

theorem step_told {schemas : JsonSchemas} {request : Server.Request R} (isTold : server.Told)
    (fresh : server.Fresh request) (moved : server.step schemas request = some server') :
    server'.Told ∧ Extends server.state.cases server'.state.cases := by
  cases request with
  | indexCaseDocuments caseId principal ambient embed fuel =>
    obtain ⟨⟨written, answer⟩, answered, rfl⟩ := Option.map_eq_some_iff.mp moved
    have answering : (server.answering embed).Told :=
      ⟨isTold.state, isTold.index.extends (.refl _) rfl rfl rfl⟩
    have both := indexCaseDocuments_told answering answered
    exact both
  | api step =>
    obtain ⟨state, stepped, rfl⟩ := Option.map_eq_some_iff.mp moved
    have state_ : Told state ∧ Extends server.state.cases state.cases := by
      obtain ⟨call, principal, draws⟩ := step
      cases call with
      | respond endpoint =>
        cases stepped
        exact respond_told isTold.state endpoint
      | createCase payload =>
        cases stepped
        obtain ⟨accounted, extends_, same⟩ :=
          createCase_accounted principal isTold.state.accounted fresh payload
        exact ⟨⟨accounted, isTold.state.actions.extends extends_ same⟩, extends_⟩
      | reviewCase caseId =>
        cases stepped
        obtain ⟨accounted, extends_, same⟩ :=
          reviewCase_accounted schemas draws principal caseId isTold.state.accounted
        exact ⟨⟨accounted, isTold.state.actions.extends extends_ same⟩, extends_⟩
    obtain ⟨told_, extends_⟩ := state_
    exact ⟨⟨told_, isTold.index.extends extends_ rfl rfl rfl⟩, extends_⟩

end

/-! ## Runs -/

section

variable {R : Type} {schemas : JsonSchemas} {embeddings : EmbeddingProvider String (List R)}
variable {chunker : StructuralChunker} {server server' : Server R} {actionId : UUID}
variable {action : GovernedAction}

theorem told_initial : (Server.initial embeddings chunker).Told :=
  ⟨told_empty, fun _ _ stored => by cases stored⟩

theorem reachable_told (reached : Server.Reachable schemas embeddings chunker server) : server.Told :=
  reached.invariant told_initial fun isTold fresh moved => (step_told isTold fresh moved).1

/-- In every state the history accounts for the records, and the requests to come leave the cases
    but for their status, the reviews and the history so far. -/
theorem Server.history_accounts (reached : Server.Reachable schemas embeddings chunker server)
    (later : StepsWhen (Server.step schemas) Server.Fresh server server') :
    Accounted none server'.state.app ∧ IndexTold server' ∧
      Extends server.state.cases server'.state.cases := by
  have isTold := reachable_told (reached.trans later)
  refine ⟨isTold.state.accounted, isTold.index, ?_⟩
  exact later.related (reachable_told reached)
    (fun isTold fresh moved => (step_told isTold fresh moved).1) (fun _ => .refl _)
    (fun first second => first.trans second) fun isTold fresh moved => (step_told isTold fresh moved).2

/-- A case is created before anything else of it is told. -/
theorem CasesTold.story {repo : InMemoryCaseRepository} (cases_ : CasesTold repo) {caseId : UUID}
    {supplierCase : SupplierCase} (found : repo.cases caseId = some supplierCase)
    {started : AuditEventCreate} {later : List AuditEventCreate}
    (story : (started :: later).Sublist (told (repo.events caseId)))
    (isStart : started.eventType = "review.started") :
    ∃ creator, (caseCreated supplierCase creator :: started :: later).Sublist
      (told (repo.events caseId)) := by
  obtain ⟨creator, rest, opened, _⟩ := cases_.opened caseId supplierCase found
  rw [opened] at story ⊢
  refine ⟨creator, ?_⟩
  cases story with
  | cons _ after => exact after.cons_cons _
  | cons_cons _ _ => exact absurd isStart (by simp [caseCreated])

/-- Every action in store carries out a completed review of its case, and nobody decided on it alone:
    its history has, in this order, the creation of the case, the start and the completion of the
    review, the proposal and the decision. -/
theorem Server.action_provenance (reached : Server.Reachable schemas embeddings chunker server)
    (stored : server.state.actions.actions actionId = some action) :
    action.id = actionId ∧ DecidedByAnother action ∧
    ∃ supplierCase review checkpoint creator started,
      server.state.cases.cases action.caseId = some supplierCase ∧
      supplierCase.tenantId = action.tenantId ∧
      server.state.cases.reviewsById action.reviewId = some review ∧ CarriesOut action review ∧
      server.state.threads action.reviewId = some checkpoint ∧
      checkpointResult checkpoint = some review ∧ Starts action.caseId action.reviewId started ∧
      ([caseCreated supplierCase creator, started, reviewCompleted review, proposedEvent action] ++
        decisions action).Sublist (told (server.state.cases.events action.caseId)) := by
  have isTold := (reachable_told reached).state
  obtain ⟨sameId, action_⟩ := isTold.actions actionId action stored
  obtain ⟨supplierCase, found, isTenant⟩ := action_.found
  obtain ⟨review, started, isReview, carriesOut, starts, story⟩ := action_.story
  obtain ⟨checkpoint, thread, finished⟩ := (isTold.accounted.recorded _ review isReview).thread
  obtain ⟨creator, whole⟩ := isTold.accounted.cases.story found story starts.eventType
  exact ⟨sameId, action_.decided, supplierCase, review, checkpoint, creator, started, found, isTenant,
    isReview, carriesOut, thread, finished, starts, whole⟩

end

/-! ## One case from its creation on

tenant-b creates a case with a document, reviews and indexes it, and proposes an action that its
approver lets through. -/

namespace Sample

open SupplierAssurance.Sample Graphs.Sample

/-- A provider whose vectors have no components. -/
def blank : EmbeddingProvider String (List Unit) := ⟨"blank", fun texts => .ok (texts.map fun _ => [])⟩

def serving (state : ApiState) : Server Unit :=
  { Server.initial blank offlineService.chunker with state }

def filedId : UUID := ((draws 0).ambient 0).uuid

def filed : ApiState := (createCase (draws 0) .empty ⟨"Beta", "", [repeatedDocument]⟩ analystB).1
def fileReviewed : ApiState := (reviewCase schemas (draws 1) filed filedId analystB).1
def fileProposed : ApiState := (proposeCaseAction (draws 2) fileReviewed filedId proposal analystB).1
def fileDecided : ApiState := (decideAction (draws 3) fileProposed actionIdB approval approverB).1

def indexFile : Server.Request Unit :=
  .indexCaseDocuments filedId analystB ((draws 4).ambient 0) blank.embed 10

def fileIndexed : Server Unit :=
  ((serving fileDecided).step schemas indexFile).getD (serving fileDecided)

theorem step_decide (schemas : JsonSchemas) (draws : Draws) (s : ApiState) (actionId : UUID)
    (request : ApprovalRequest) (principal : Principal) :
    s.step schemas ⟨.respond (.decideAction actionId request), principal, draws⟩ =
      some (decideAction draws s actionId request principal).1 := rfl

theorem reached_step {s s' : ApiState} {step : ApiStep}
    (reached : Server.Reachable schemas blank offlineService.chunker (serving s))
    (moved : s.step schemas step = some s') (fresh : (serving s).Fresh (.api step)) :
    Server.Reachable schemas blank offlineService.chunker (serving s') := by
  refine .tail reached fresh ?_
  simp [Server.step, serving, moved]

theorem reached_fileDecided :
    Server.Reachable schemas blank offlineService.chunker (serving fileDecided) := by
  have created : ApiState.empty.step schemas
      ⟨.createCase ⟨"Beta", "", [repeatedDocument]⟩, analystB, draws 0⟩ = some filed := rfl
  have reviewed : filed.step schemas ⟨.reviewCase filedId, analystB, draws 1⟩ = some fileReviewed := rfl
  have proposed : fileReviewed.step schemas
      ⟨.respond (.proposeCaseAction filedId proposal), analystB, draws 2⟩ = some fileProposed := rfl
  have decided := step_decide schemas (draws 3) fileProposed actionIdB approval approverB
  have reached₁ := reached_step .refl created rfl
  have reached₂ := reached_step reached₁ reviewed trivial
  have reached₃ := reached_step reached₂ proposed trivial
  exact reached_step reached₃ decided trivial

theorem indexed_file : (serving fileDecided).step schemas indexFile = some fileIndexed ∧
    (fileIndexed.retrieval.chunks filedId).isSome = true := by
  have computed : (((serving fileDecided).step schemas indexFile).any fun server =>
      (server.retrieval.chunks filedId).isSome) = true := by
    decide +kernel
  obtain ⟨server, moved, isIndexed⟩ := (Option.any_eq_true _ _).mp computed
  have same : fileIndexed = server := by
    rw [fileIndexed, moved]
    rfl
  rw [same]
  exact ⟨moved, isIndexed⟩

end Sample

open SupplierAssurance.Sample Graphs.Sample Sample in
/-- The case is indexed after the decision. -/
theorem history_accounts_file :
    (fileIndexed.retrieval.chunks filedId).isSome = true ∧
      Accounted none fileIndexed.state.app ∧ IndexTold fileIndexed ∧
      Extends (serving fileDecided).state.cases fileIndexed.state.cases := by
  obtain ⟨moved, isIndexed⟩ := indexed_file
  have fresh : (serving fileDecided).Fresh indexFile := trivial
  exact ⟨isIndexed, Server.history_accounts reached_fileDecided (.tail .refl fresh moved)⟩

open SupplierAssurance.Sample Graphs.Sample Sample in
/-- The approved action of the case. -/
theorem action_provenance_file :
    ∃ action, (serving fileDecided).state.actions.actions actionIdB = some action ∧
      action.status = .approved ∧ DecidedByAnother action ∧ ∃ checkpoint review,
        (serving fileDecided).state.threads action.reviewId = some checkpoint ∧
        checkpointResult checkpoint = some review ∧ CarriesOut action review := by
  have computed : (((serving fileDecided).state.actions.actions actionIdB).any
      (·.status = .approved)) = true := by
    decide +kernel
  obtain ⟨action, stored, approved⟩ := (Option.any_eq_true _ _).mp computed
  obtain ⟨_, another, _, review, checkpoint, _, _, _, _, _, carriesOut, thread, finished, _⟩ :=
    Server.action_provenance reached_fileDecided stored
  exact ⟨action, stored, of_decide_eq_true approved, another, checkpoint, review, thread, finished,
    carriesOut⟩

end SupplierAssurance.Api
