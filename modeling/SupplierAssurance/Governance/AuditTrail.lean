import SupplierAssurance.Governance.Lifecycle
import SupplierAssurance.Persistence.Cases

/-! # The audit history of an action

The three operations that write an action write their audit event in the same
transaction.  `AuditPath a events` says that `events` is the path of `a` to its status,
each step once and by the right actor; `Audited` is the invariant that the `action.*`
events naming an action are such a path, and that no such event names an action that
does not exist.

The system of this module is the `World` with two more kinds of step: a transaction of a
governance call may abort, and the other writers of the audit log append their events.
-/

namespace SupplierAssurance.Governance

open Python Lib SqlAlchemyActionRepository SqlAlchemyCaseRepository

/-! ## Histories -/

/-- `event_type.startswith("action.")`. -/
def isActionEvent (event : AuditEventCreate) : Bool :=
  "action.".toList.isPrefixOf event.eventType.toList

/-- `payload["action_id"] == str(action_id)`. -/
def namesAction (actionId : UUID) (event : AuditEventCreate) : Bool :=
  event.payload.lookup "action_id" == some (.str actionId.str)

def concerns (actionId : UUID) (event : AuditEvent) : Bool :=
  isActionEvent event.toAuditEventCreate && namesAction actionId event.toAuditEventCreate

/-- The `action.*` events that name an action, in the order in which they were committed. -/
def actionHistory (audit : List AuditEvent) (actionId : UUID) : List AuditEvent :=
  audit.filter (concerns actionId)

/-- An event of the given type in the action's case. -/
structure Logged (a : GovernedAction) (eventType : String) (e : AuditEvent) : Prop where
  eventType : e.eventType = eventType
  caseId : e.caseId = a.caseId

structure LoggedProposal (a : GovernedAction) (e : AuditEvent) : Prop
    extends Logged a "action.proposed" e where
  actor : e.actorId = a.proposerId

structure LoggedDecision (a : GovernedAction) (eventType : String) (e : AuditEvent) : Prop
    extends Logged a eventType e where
  actor : a.approverId = some e.actorId

/-- The path of an action to its status. -/
inductive AuditPath (a : GovernedAction) : List AuditEvent → Prop
  | proposed {p : AuditEvent} : a.status = .pendingApproval → LoggedProposal a p →
      AuditPath a [p]
  | approved {p d : AuditEvent} : a.status = .approved → LoggedProposal a p →
      LoggedDecision a "action.approved" d → AuditPath a [p, d]
  | rejected {p d : AuditEvent} : a.status = .rejected → LoggedProposal a p →
      LoggedDecision a "action.rejected" d → AuditPath a [p, d]
  | executed {p d x : AuditEvent} : a.status = .executed → LoggedProposal a p →
      LoggedDecision a "action.approved" d → Logged a "action.executed" x → AuditPath a [p, d, x]

structure Audited (rows : List GovernedAction) (audit : List AuditEvent) : Prop where
  path : ∀ a ∈ rows, AuditPath a (actionHistory audit a.id)
  known : ∀ e ∈ audit, ∀ id, concerns id e = true → ∃ a ∈ rows, a.id = id

theorem actionHistory_concat (audit : List AuditEvent) (e : AuditEvent) (id : UUID) :
    actionHistory (audit ++ [e]) id =
      actionHistory audit id ++ if concerns id e then [e] else [] := by
  unfold actionHistory
  rw [List.filter_append]
  cases concerned : concerns id e <;> simp [concerned]

/-- The events of the three operations name the action they are about and no other. -/
theorem namesAction_iff {event : AuditEventCreate} {id id' : UUID} {rest : List (String × Scalar)}
    (payload : event.payload = ("action_id", .str id.str) :: rest) :
    namesAction id' event = true ↔ id' = id := by
  simp only [namesAction, payload, List.lookup_cons_self, beq_iff_eq, Option.some.injEq,
    Scalar.str.injEq]
  exact ⟨fun same => (UUID.str_injective same).symm, fun same => by rw [same]⟩

variable {rows : List GovernedAction} {audit : List AuditEvent} {a b : GovernedAction}
  {events : List AuditEvent}

/-- A path depends on the identity, the status and the approver of the action only. -/
theorem AuditPath.congr (path : AuditPath a events) (identity : b.identity = a.identity)
    (status : b.status = a.status) (approver : b.approverId = a.approverId) :
    AuditPath b events := by
  have sameCase : b.caseId = a.caseId := congrArg ActionIdentity.caseId identity
  have sameProposer : b.proposerId = a.proposerId := congrArg ActionIdentity.proposerId identity
  have logged : ∀ {eventType e}, Logged a eventType e → Logged b eventType e :=
    fun old => ⟨old.eventType, old.caseId.trans sameCase.symm⟩
  have proposal : ∀ {e}, LoggedProposal a e → LoggedProposal b e :=
    fun old => ⟨logged old.toLogged, old.actor.trans sameProposer.symm⟩
  have decision : ∀ {eventType e}, LoggedDecision a eventType e → LoggedDecision b eventType e :=
    fun old => ⟨logged old.toLogged, approver.trans old.actor⟩
  cases path with
  | proposed at_ p => exact .proposed (status.trans at_) (proposal p)
  | approved at_ p d => exact .approved (status.trans at_) (proposal p) (decision d)
  | rejected at_ p d => exact .rejected (status.trans at_) (proposal p) (decision d)
  | executed at_ p d x =>
    exact .executed (status.trans at_) (proposal p) (decision d) (logged x)

/-! ## What the three operations write -/

/-- The event concerns this action and no other. -/
def Names (id : UUID) (e : AuditEvent) : Prop :=
  ∀ id', concerns id' e = true ↔ id' = id

theorem names_auditRecord {event : AuditEventCreate} {id uuid : UUID} {now : Datetime}
    {rest : List (String × Scalar)} (kind : isActionEvent event = true)
    (payload : event.payload = ("action_id", .str id.str) :: rest) :
    Names id (auditRecord event uuid now) := by
  intro id'
  have named := @namesAction_iff event id id' rest payload
  simp only [concerns, auditRecord, kind, Bool.true_and]
  exact named

theorem isActionEvent_append {event : AuditEventCreate} (kind : String)
    (eventType : event.eventType = "action." ++ kind) : isActionEvent event = true := by
  unfold isActionEvent
  rw [eventType, String.toList_append, List.isPrefixOf_iff_prefix]
  exact List.prefix_append _ _

variable {id uuid : UUID} {now : Datetime} {e : AuditEvent}

theorem names_proposed (a : GovernedAction) (uuid : UUID) (now : Datetime) :
    Names a.id (auditRecord (proposedEvent a) uuid now) :=
  names_auditRecord (isActionEvent_append "proposed" (show "action.proposed" = _ by decide)) rfl

theorem names_decided (a : GovernedAction) (principal : Principal) (uuid : UUID) (now : Datetime) :
    Names a.id (auditRecord (decidedEvent a principal) uuid now) :=
  names_auditRecord (isActionEvent_append a.status.value rfl) rfl

theorem names_executed (a : GovernedAction) (receipt : ExecutionReceipt) (principal : Principal)
    (uuid : UUID) (now : Datetime) :
    Names a.id (auditRecord (executedEvent a receipt principal) uuid now) :=
  names_auditRecord (isActionEvent_append "executed" (show "action.executed" = _ by decide)) rfl

theorem Names.history_eq (named : Names id e) (audit : List AuditEvent) :
    actionHistory (audit ++ [e]) id = actionHistory audit id ++ [e] := by
  rw [actionHistory_concat, if_pos ((named id).mpr rfl)]

theorem Names.history_other {other : UUID} (named : Names id e) (audit : List AuditEvent)
    (differ : other ≠ id) : actionHistory (audit ++ [e]) other = actionHistory audit other := by
  rw [actionHistory_concat, if_neg (fun concerned => differ ((named other).mp concerned)),
    List.append_nil]

/-! ## The invariant under each write -/

theorem Audited.nil : Audited [] [] where
  path := by simp
  known := by simp

theorem Audited.of_map (audited : Audited rows audit) (f : GovernedAction → GovernedAction)
    (identity : ∀ a, (f a).identity = a.identity) (status : ∀ a, (f a).status = a.status)
    (approver : ∀ a, (f a).approverId = a.approverId) : Audited (rows.map f) audit := by
  have sameId : ∀ a, (f a).id = a.id := fun a => congrArg ActionIdentity.id (identity a)
  constructor
  · intro a' member
    obtain ⟨a, old, rfl⟩ := List.mem_map.mp member
    rw [sameId]
    exact (audited.path a old).congr (identity a) (status a) (approver a)
  · intro e member id concerned
    obtain ⟨a, old, same⟩ := audited.known e member id concerned
    exact ⟨f a, List.mem_map_of_mem old, (sameId a).trans same⟩

/-- The other writers of the log. -/
theorem Audited.append (audited : Audited rows audit)
    (other : isActionEvent e.toAuditEventCreate = false) : Audited rows (audit ++ [e]) := by
  have unconcerned : ∀ id, concerns id e = false := by simp [concerns, other]
  constructor
  · intro a member
    rw [actionHistory_concat, unconcerned]
    simpa using audited.path a member
  · intro e' member id concerned
    rcases List.mem_append.mp member with old | new
    · exact audited.known e' old id concerned
    · rw [List.mem_singleton.mp new, unconcerned] at concerned
      cases concerned

theorem Audited.insert (audited : Audited rows audit) (fresh : ∀ old ∈ rows, old.id ≠ a.id)
    (named : Names a.id e) (path : AuditPath a [e]) : Audited (rows ++ [a]) (audit ++ [e]) := by
  constructor
  · intro b member
    rcases List.mem_append.mp member with old | new
    · rw [named.history_other audit (fresh b old)]
      exact audited.path b old
    · -- no event concerned the identifier before: there was no action under it
      rw [List.mem_singleton.mp new, named.history_eq]
      have empty : actionHistory audit a.id = [] := by
        apply List.filter_eq_nil_iff.mpr
        intro e' member concerned
        obtain ⟨old, oldMember, same⟩ := audited.known e' member a.id concerned
        exact fresh old oldMember same
      rw [empty]
      exact path
  · intro e' member id concerned
    rcases List.mem_append.mp member with old | new
    · obtain ⟨b, bMember, same⟩ := audited.known e' old id concerned
      exact ⟨b, List.mem_append_left _ bMember, same⟩
    · rw [List.mem_singleton.mp new] at concerned
      exact ⟨a, by simp, ((named id).mp concerned).symm⟩

/-- A transition of the row `record` with the event that extends its path. -/
theorem Audited.transition {record : GovernedAction} (audited : Audited rows audit)
    (only : ∀ old ∈ rows, old.id = a.id → old = record) (found : record ∈ rows)
    (sameId : record.id = a.id) (named : Names a.id e)
    (extend : ∀ events, AuditPath record events → AuditPath (assignTransition a record) (events ++ [e])) :
    Audited (transitionRows a rows) (audit ++ [e]) := by
  constructor
  · intro row member
    rcases mem_transitionRows member with ⟨old, oldMember, same, rfl⟩ | ⟨old, other⟩
    · obtain rfl := only old oldMember same
      show AuditPath _ (actionHistory (audit ++ [e]) old.id)
      rw [same, named.history_eq, ← same]
      exact extend _ (audited.path old oldMember)
    · rw [named.history_other audit other]
      exact audited.path row old
  · intro e' member id concerned
    have kept : ∀ old ∈ rows, ∃ row ∈ transitionRows a rows, row.id = old.id := by
      intro old oldMember
      refine ⟨_, List.mem_map_of_mem oldMember, ?_⟩
      split <;> rfl
    rcases List.mem_append.mp member with old | new
    · obtain ⟨b, bMember, rfl⟩ := audited.known e' old id concerned
      exact kept b bMember
    · rw [List.mem_singleton.mp new] at concerned
      obtain ⟨row, rowMember, same⟩ := kept record found
      exact ⟨row, rowMember, same.trans (sameId.trans ((named id).mp concerned).symm)⟩

theorem AuditPath.of_pending {record : GovernedAction} (path : AuditPath record events)
    (pending : record.status = .pendingApproval) : ∃ p, events = [p] ∧ LoggedProposal record p := by
  cases path with
  | proposed _ p => exact ⟨_, rfl, p⟩
  | approved at_ | rejected at_ | executed at_ => rw [pending] at at_; cases at_

theorem AuditPath.of_approved {record : GovernedAction} (path : AuditPath record events)
    (approved : record.status = .approved) :
    ∃ p d, events = [p, d] ∧ LoggedProposal record p ∧ LoggedDecision record "action.approved" d := by
  cases path with
  | approved _ p d => exact ⟨_, _, rfl, p, d⟩
  | proposed at_ | rejected at_ | executed at_ => rw [approved] at at_; cases at_

/-- A decision extends the path of the open row that it is about. -/
theorem Verdict.extend {record : GovernedAction} {principal : Principal}
    (verdict : Verdict rows principal a) (only : ∀ old ∈ rows, old.id = a.id → old = record)
    (open_ : record.status = .pendingApproval) (path : AuditPath record events) :
    AuditPath (assignTransition a record)
      (events ++ [auditRecord (decidedEvent a principal) uuid now]) := by
  obtain ⟨p, rfl, proposal⟩ := path.of_pending open_
  obtain ⟨b, bMember, identity⟩ := verdict.row
  have copy := only b bMember (congrArg ActionIdentity.id identity)
  subst copy
  have sameCase : a.caseId = b.caseId := (congrArg ActionIdentity.caseId identity).symm
  have first : LoggedProposal (assignTransition a b) p :=
    ⟨⟨proposal.eventType, proposal.caseId⟩, proposal.actor⟩
  rcases verdict.status with approved | rejected
  · refine .approved approved first ⟨⟨?_, sameCase⟩, verdict.approver⟩
    simp [auditRecord, decidedEvent, approved, ActionStatus.value]
  · refine .rejected rejected first ⟨⟨?_, sameCase⟩, verdict.approver⟩
    simp [auditRecord, decidedEvent, rejected, ActionStatus.value]

/-- An execution extends the path of the approved row that it is about. -/
theorem ApprovedCopy.extend {record : GovernedAction} {receipt : ExecutionReceipt}
    {principal : Principal} (copy : ApprovedCopy rows a)
    (only : ∀ old ∈ rows, old.id = a.id → old = record) (approved : record.status = .approved)
    (path : AuditPath record events) :
    AuditPath (assignTransition (executedAction a receipt) record)
      (events ++ [auditRecord (executedEvent (executedAction a receipt) receipt principal) uuid now]) := by
  obtain ⟨p, d, rfl, proposal, decision⟩ := path.of_approved approved
  have approver := copy.approver only
  obtain ⟨b, bMember, identity, _⟩ := copy.row
  have same := only b bMember (congrArg ActionIdentity.id identity)
  subst same
  refine .executed rfl ⟨⟨proposal.eventType, proposal.caseId⟩, proposal.actor⟩
    ⟨⟨decision.eventType, decision.caseId⟩, approver.trans decision.actor⟩ ⟨rfl, ?_⟩
  exact (congrArg ActionIdentity.caseId identity).symm

/-- The step lemma: one step of a governance call. -/
theorem Audited.advance {σ ε : Type} {system : SupplierSystem σ ε} {db : Store} {supplier : σ}
    {ambient : Ambient} {input : ε} {request : Request} {call : Call} {p : Progress σ}
    (audited : Audited db.actions.rows db.audit.rows) (ok : CallOk db.actions.rows request call)
    (advances : Advances system db supplier ambient input call p) :
    Audited p.store.actions.rows p.store.audit.rows := by
  cases advances with
  | reads | applies | applyRaises => exact audited
  | @inserts action _ committed =>
    obtain ⟨_, _, rows, log, _, fresh, _⟩ := insertProposal_some committed
    cases ok with
    | insertProposal now prepared =>
      rw [rows, log]
      refine audited.insert fresh (names_proposed action _ _) ?_
      exact .proposed (prepareAction_pending prepared) ⟨⟨rfl, rfl⟩, rfl⟩
  | decides committed =>
    obtain ⟨record, audit, found, sameId, open_, log, rfl⟩ := saveTransition_ok committed
    cases ok with
    | saveDecision verdict =>
      have only := only_row found sameId
      rw [applyTransition_rows]
      show Audited _ audit.rows
      rw [log]
      exact audited.transition only found sameId (names_decided _ _ _ _)
        fun _ path => verdict.extend only open_ path
  | executes committed =>
    obtain ⟨record, audit, found, sameId, approved, log, rfl⟩ := saveTransition_ok committed
    cases ok with
    | saveExecution copy =>
      have only := only_row found sameId
      rw [applyTransition_rows]
      show Audited _ audit.rows
      rw [log]
      exact audited.transition only found sameId (names_executed _ _ _ _ _)
        fun _ path => copy.extend only approved path

end SupplierAssurance.Governance

/-! ## Runs with aborted transactions -/

namespace SupplierAssurance.World

open Python Lib Governance Outbox SqlAlchemyActionRepository SqlAlchemyOutboxRepository
open SqlAlchemyCaseRepository

variable {σ ε ω φ : Type} {platform : Platform σ ε ω φ} {w w' : World σ ω}

structure Trailed (w : World σ ω) : Prop where
  audited : Audited w.store.actions.rows w.store.audit.rows
  stored : ∀ a ∈ w.store.actions.rows, a.caseId ∈ w.store.caseIds

/-- Every action refers to a stored case, and no step removes a case. -/
theorem Advances.stored {system : SupplierSystem σ ε} {db : Store} {supplier : σ}
    {ambient : Ambient} {input : ε} {call : Call} {p : Progress σ}
    (stored : ∀ a ∈ db.actions.rows, a.caseId ∈ db.caseIds)
    (advances : Advances system db supplier ambient input call p) :
    ∀ a ∈ p.store.actions.rows, a.caseId ∈ p.store.caseIds := by
  cases advances with
  | reads | applies | applyRaises => exact stored
  | inserts committed =>
    obtain ⟨cases_, _, rows, _⟩ := insertProposal_some committed
    intro a member
    rw [rows] at member
    rw [cases_]
    rcases List.mem_append.mp member with old | new
    · exact stored a old
    · rw [List.mem_singleton.mp new]
      unfold SqlAlchemyActionRepository.insertProposal at committed
      split at committed
      next exist => exact exist.1
      next => cases committed
  | decides committed | executes committed =>
    obtain ⟨record, audit, _, _, _, _, rfl⟩ := saveTransition_ok committed
    intro a member
    rw [applyTransition_rows] at member
    rcases mem_transitionRows member with ⟨old, oldMember, _, rfl⟩ | ⟨old, _⟩
    · exact stored old oldMember
    · exact stored a old

theorem trailed_step {label : Label ε φ} (governed : w.Governed) (trailed : w.Trailed)
    (moved : step platform w label = some w') : w'.Trailed := by
  cases step_moves moved with
  | advance at_ advances =>
    have ok := governed.callsOk _ (List.mem_of_getElem? at_)
    exact ⟨trailed.audited.advance ok advances, Advances.stored trailed.stored advances⟩
  | acknowledge _ _ acknowledged =>
    cases acknowledged with
    | unchanged | failed => exact ⟨trailed.audited, trailed.stored⟩
    | published =>
      constructor
      · show Audited (Table.rows _) _
        rw [publish_actions]
        apply trailed.audited.of_map <;> intro a <;> split <;> rfl
      · intro a member
        change a ∈ Table.rows _ at member
        rw [publish_actions] at member
        obtain ⟨old, oldMember, rfl⟩ := List.mem_map.mp member
        have kept := trailed.stored old oldMember
        split <;> exact kept
  | storeCase caseId =>
    exact ⟨trailed.audited, fun a member => List.mem_cons_of_mem _ (trailed.stored a member)⟩
  | submit | claim | load | start | crash | storeReview =>
    exact ⟨trailed.audited, trailed.stored⟩

inductive FaultLabel (ε φ : Type) where
  | step (label : Label ε φ)
  | abort (index : Nat) (error : GovernanceError)
  | audit (event : AuditEventCreate) (ambient : Ambient)

/-- A step of the world, or one of two more.  `abort`: the next transaction of a call is
    rolled back by the database and its exception leaves the call.  `audit`: another part of
    the program appends an event of its own (`case.*`, `review.*`, `documents.*`). -/
def faultStep (platform : Platform σ ε ω φ) (w : World σ ω) : FaultLabel ε φ → Option (World σ ω)
  | .step label => step platform w label
  | .abort index error =>
    match w.calls[index]? with
    | none => none
    | some ⟨_, .returned _⟩ => none
    | some ⟨request, _⟩ => some { w with calls := w.calls.set index ⟨request, .returned (.error error)⟩ }
  | .audit event ambient =>
    if isActionEvent event then none
    else (appendAuditEvent w.store event ambient).map fun store => { w with store }

/-- The invariants of the calls and of the log hold in every run, whatever aborts. -/
theorem trailed_faultStep {label : FaultLabel ε φ} (both : w.Governed ∧ w.Trailed)
    (moved : faultStep platform w label = some w') : w'.Governed ∧ w'.Trailed := by
  obtain ⟨governed, trailed⟩ := both
  cases label with
  | step label => exact ⟨governed_step governed moved, trailed_step governed trailed moved⟩
  | abort index error =>
    simp only [faultStep] at moved
    split at moved
    next => cases moved
    next => cases moved
    next request call _ at_ =>
      cases moved
      refine ⟨Governance.Governed.setCall governed at_ .returned ?_, trailed.audited, trailed.stored⟩
      intro id approval principal response _ raised
      cases raised
  | audit event ambient =>
    simp only [faultStep] at moved
    split at moved
    next => cases moved
    next other =>
      obtain ⟨db', appended, rfl⟩ := Option.map_eq_some_iff.mp moved
      unfold appendAuditEvent at appended
      split at appended
      next =>
        obtain ⟨audit, inserted, rfl⟩ := Option.map_eq_some_iff.mp appended
        refine ⟨governed, ?_, trailed.stored⟩
        -- an event that names no action continues no history
        show Audited _ audit.rows
        rw [(Table.insert?_eq_some inserted).1]
        exact trailed.audited.append (Bool.eq_false_iff.mpr other)
      next => cases appended

/-- The log and the actions of a store agree.  `createdAt` is the reading of the clock at
    the step that committed the event. -/
structure AuditAgrees (db : Store) : Prop where
  path : ∀ a ∈ db.actions.rows, AuditPath a (actionHistory db.audit.rows a.id)
  named : ∀ e ∈ db.audit.rows, ∀ id, concerns id e = true → ∃ a ∈ db.actions.rows, a.id = id
  listed : ∀ a ∈ db.actions.rows,
    ((actionHistory db.audit.rows a.id).Pairwise fun e e' => e.createdAt < e'.createdAt) →
    ∃ events, listAuditEvents db a.caseId = .ok events ∧
      events.filter (concerns a.id) = actionHistory db.audit.rows a.id

theorem AuditPath.caseId {a : GovernedAction} {events : List AuditEvent} (path : AuditPath a events) :
    ∀ e ∈ events, e.caseId = a.caseId := by
  cases path with
  | proposed _ p => simp [p.caseId]
  | approved _ p d | rejected _ p d => simp [p.caseId, d.caseId]
  | executed _ p d x => simp [p.caseId, d.caseId, x.caseId]

/-- The events of an action are all listed with its case. -/
theorem actionHistory_filter_case {a : GovernedAction} {audit : List AuditEvent}
    (path : AuditPath a (actionHistory audit a.id)) :
    (audit.filter fun e => e.caseId = a.caseId).filter (concerns a.id) = actionHistory audit a.id := by
  rw [List.filter_comm]
  apply List.filter_eq_self.mpr
  intro e member
  simpa using AuditPath.caseId path e member

theorem Trailed.auditAgrees (trailed : w.Trailed) : AuditAgrees w.store := by
  refine ⟨trailed.audited.path, trailed.audited.known, ?_⟩
  intro a member increasing
  have own := actionHistory_filter_case (trailed.audited.path a member)
  refine ⟨_, if_pos (trailed.stored a member), ?_⟩
  rw [filter_insertionSort _ _ (by rw [own]; exact increasing), own]

/-- In every state of every run, whatever aborts, the log agrees with the actions. -/
theorem auditAgrees_of_faultSteps {caseIds reviewIds : List UUID} {supplier : σ} {workflow : ω}
    (steps : Steps (faultStep platform) (initial caseIds reviewIds supplier workflow) w) :
    AuditAgrees w.store := by
  have both : w.Governed ∧ w.Trailed :=
    steps.invariant ⟨Governance.Governed.nil, Audited.nil, by simp [initial, Store.empty]⟩
      fun holds _ moved => trailed_faultStep holds moved
  exact both.2.auditAgrees

/-- A full life in which the first attempt to save the decision aborts and an event of
    another writer is appended in between. -/
def Sample.abortedLife : List (FaultLabel Datetime Unit) :=
  let id := actionIdFor Sample.analystA.tenantId ⟨0xc⟩
  [.step (.submit (.propose Sample.proposalA) 1), .step (.advance 0 (Sample.ambient 2 0) 0),
    .step (.advance 0 (Sample.ambient 3 1) 0),
    .step (.submit (.decide id Sample.approval Sample.approverA) 4),
    .step (.advance 1 (Sample.ambient 5 2) 0), .abort 1 .integrityError,
    .audit ⟨Sample.caseA.id, "review.started", "ana", []⟩ (Sample.ambient 5 3),
    .step (.submit (.decide id Sample.approval Sample.approverA) 6),
    .step (.advance 2 (Sample.ambient 7 4) 0), .step (.advance 2 (Sample.ambient 8 5) 0)]

theorem auditAgrees_of_faultSteps_aborted :
    ∃ w, Steps (faultStep Sample.platform) (initial [⟨0xa⟩] [⟨0x1a⟩] [] ()) w ∧
      w.store.actions.rows.map (·.status) = [.approved] ∧ AuditAgrees w.store := by
  have replayed : (run (faultStep Sample.platform) (initial [⟨0xa⟩] [⟨0x1a⟩] [] ())
      Sample.abortedLife).map (fun w => decide (w.store.actions.rows.map (·.status) = [.approved])) =
      some true := by
    decide +kernel
  obtain ⟨w, ran, passed⟩ := Option.map_eq_some_iff.mp replayed
  exact ⟨w, steps_of_run ran, of_decide_eq_true passed, auditAgrees_of_faultSteps (steps_of_run ran)⟩

end SupplierAssurance.World
