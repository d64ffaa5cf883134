import Mathlib.Data.List.Pairwise
import Mathlib.Logic.Relation
import SupplierAssurance.System

/-! # The life of a governed action

What holds of the stored actions across every interleaving of calls and workers.

A call works on a copy of the action that it read in an earlier transaction.  The copy
may be stale, but not in a way that matters: rows only evolve — the identity of an
action is fixed, its status moves along `StatusMove`, and its approver is fixed once it
has left `pendingApproval` — and `CallOk`, which says what the copy of a call still tells
about the row, survives every such change.
-/

namespace SupplierAssurance

open Python

/-- The part of an action that is fixed at its creation. -/
structure ActionIdentity where
  id : UUID
  caseId : UUID
  reviewId : UUID
  tenantId : String
  toolName : String
  arguments : SupplierDecisionArguments
  proposerId : String
  idempotencyKey : UUID
  createdAt : Datetime
deriving DecidableEq

def GovernedAction.identity (a : GovernedAction) : ActionIdentity :=
  ⟨a.id, a.caseId, a.reviewId, a.tenantId, a.toolName, a.arguments, a.proposerId,
    a.idempotencyKey, a.createdAt⟩

end SupplierAssurance

namespace SupplierAssurance.Governance

open Python Lib SqlAlchemyActionRepository

variable {rows rows' : List GovernedAction} {calls : List InFlight} {history : List (Nat × Event)}
  {a b : GovernedAction} {request : Request} {call call' : Call} {db db' : Store}

/-! ## Evolution of a row -/

inductive StatusMove : ActionStatus → ActionStatus → Prop
  | approve : StatusMove .pendingApproval .approved
  | reject : StatusMove .pendingApproval .rejected
  | execute : StatusMove .approved .executed

/-- The action has been approved; it may have been executed since. -/
def PastApproval (status : ActionStatus) : Prop :=
  status = .approved ∨ status = .executed

structure Evolves (a a' : GovernedAction) : Prop where
  identity : a'.identity = a.identity
  status : a'.status = a.status ∨ StatusMove a.status a'.status
  approver : a.status ≠ .pendingApproval → a'.approverId = a.approverId

def RowsEvolve (rows rows' : List GovernedAction) : Prop :=
  ∀ a ∈ rows, ∃ a' ∈ rows', Evolves a a'

theorem Evolves.refl (a : GovernedAction) : Evolves a a :=
  ⟨rfl, .inl rfl, fun _ => rfl⟩

theorem RowsEvolve.of_subset (subset : rows ⊆ rows') : RowsEvolve rows rows' :=
  fun a member => ⟨a, subset member, .refl a⟩

theorem Evolves.id (evolves : Evolves a b) : b.id = a.id :=
  congrArg ActionIdentity.id evolves.identity

theorem Evolves.pastApproval (evolves : Evolves a b) (past : PastApproval a.status) :
    PastApproval b.status ∧ b.approverId = a.approverId := by
  have left : a.status ≠ .pendingApproval := by
    rcases past with h | h <;> simp [h]
  refine ⟨?_, evolves.approver left⟩
  rcases evolves.status with same | moved
  · rw [same]
    exact past
  · generalize a.status = before at moved left
    generalize b.status = after at moved
    cases moved with
    | approve | reject => exact absurd rfl left
    | execute => exact .inr rfl

/-! ## Calls -/

/-- The policy of `decide`: role, tenant boundary and separation of duties. -/
structure MayDecide (principal : Principal) (a : GovernedAction) : Prop where
  role : principal.hasRole .approver = true
  tenant : .admin ∈ principal.roles ∨ principal.tenantId = a.tenantId
  separate : principal.subject ≠ a.proposerId

/-- A copy of an approved action: the row is still past approval, under the same approver. -/
structure ApprovedCopy (rows : List GovernedAction) (a : GovernedAction) : Prop where
  approved : a.status = .approved
  row : ∃ b ∈ rows, b.identity = a.identity ∧ PastApproval b.status ∧ b.approverId = a.approverId

/-- A decision that is ready to be written. -/
structure Verdict (rows : List GovernedAction) (principal : Principal) (decided : GovernedAction) :
    Prop where
  may : MayDecide principal decided
  approver : decided.approverId = some principal.subject
  status : decided.status = .approved ∨ decided.status = .rejected
  row : ∃ b ∈ rows, b.identity = decided.identity

/-- What the local variables of a call say about its request and about the rows. -/
inductive CallOk (rows : List GovernedAction) : Request → Call → Prop
  | lookupProposal {r : ProposeRequest} {a : GovernedAction} (now : Datetime) :
      prepareAction r now = .ok a → CallOk rows (.propose r) (.lookupProposal a)
  | insertProposal {r : ProposeRequest} {a : GovernedAction} (now : Datetime) :
      prepareAction r now = .ok a → CallOk rows (.propose r) (.insertProposal a)
  | reloadProposal {r : ProposeRequest} {a : GovernedAction} (now : Datetime) :
      prepareAction r now = .ok a → CallOk rows (.propose r) (.reloadProposal a)
  | loadToDecide {id : UUID} {approval : ApprovalRequest} {principal : Principal} :
      principal.hasRole .approver = true →
      CallOk rows (.decide id approval principal) (.loadToDecide id approval principal)
  | saveDecision {approval : ApprovalRequest} {principal : Principal} {decided : GovernedAction} :
      Verdict rows principal decided →
      CallOk rows (.decide decided.id approval principal) (.saveDecision decided principal)
  | loadToExecute {id : UUID} {principal : Principal} :
      CallOk rows (.execute id principal) (.loadToExecute id principal)
  | applyDecision {principal : Principal} {a : GovernedAction} : ApprovedCopy rows a →
      CallOk rows (.execute a.id principal) (.applyDecision a principal)
  | saveExecution {principal : Principal} {a : GovernedAction} {receipt : ExecutionReceipt} :
      ApprovedCopy rows a →
      CallOk rows (.execute a.id principal) (.saveExecution a receipt principal)
  | reloadExecution {id : UUID} {principal : Principal} {conflict : String} :
      CallOk rows (.execute id principal) (.reloadExecution id conflict)
  | returned {request : Request} {result : Except GovernanceError Response} :
      CallOk rows request (.returned result)

theorem ApprovedCopy.evolve (evolve : RowsEvolve rows rows') (copy : ApprovedCopy rows a) :
    ApprovedCopy rows' a := by
  obtain ⟨b, member, identity, past, approver⟩ := copy.row
  obtain ⟨b', member', evolves⟩ := evolve b member
  obtain ⟨past', approver'⟩ := evolves.pastApproval past
  exact ⟨copy.approved, b', member', evolves.identity.trans identity, past',
    approver'.trans approver⟩

theorem CallOk.evolve (evolve : RowsEvolve rows rows') (ok : CallOk rows request call) :
    CallOk rows' request call := by
  cases ok with
  | lookupProposal now prepared => exact .lookupProposal now prepared
  | insertProposal now prepared => exact .insertProposal now prepared
  | reloadProposal now prepared => exact .reloadProposal now prepared
  | loadToDecide role => exact .loadToDecide role
  | saveDecision verdict =>
    obtain ⟨b, member, identity⟩ := verdict.row
    obtain ⟨b', member', evolves⟩ := evolve b member
    exact .saveDecision ⟨verdict.may, verdict.approver, verdict.status, b', member',
      evolves.identity.trans identity⟩
  | loadToExecute => exact .loadToExecute
  | applyDecision copy => exact .applyDecision (copy.evolve evolve)
  | saveExecution copy => exact .saveExecution (copy.evolve evolve)
  | reloadExecution => exact .reloadExecution
  | returned => exact .returned

theorem Call.enter_ok (rows : List GovernedAction) (now : Datetime) (request : Request) :
    CallOk rows request (Call.enter now request) := by
  cases request with
  | propose r =>
    simp only [Call.enter]
    split
    next => exact .returned
    next prepared => exact .lookupProposal now prepared
  | decide id approval principal =>
    simp only [Call.enter]
    split
    next => exact .returned
    next passed => exact .loadToDecide (requireRole_ok passed)
  | execute id principal =>
    simp only [Call.enter]
    split
    next => exact .returned
    next => exact .loadToExecute

theorem prepareAction_pending {r : ProposeRequest} {now : Datetime}
    (prepared : prepareAction r now = .ok a) : (recordFromAction a).status = .pendingApproval := by
  obtain ⟨_, _, _, arguments, rfl⟩ := prepareAction_ok prepared
  rfl

theorem decidedStatus_cases (decision : ApprovalDecision) :
    decidedStatus decision = .approved ∨ decidedStatus decision = .rejected := by
  cases decision
  · exact .inl rfl
  · exact .inr rfl

/-- A read leaves the call with a copy that is as good as the row it was read from. -/
theorem Reads.callOk {now : Datetime} (reads : Reads db now call call')
    (ok : CallOk db.actions.rows request call) : CallOk db.actions.rows request call' := by
  cases reads with
  | toInsert =>
    cases ok with
    | lookupProposal now prepared => exact .insertProposal now prepared
  | toReload =>
    cases ok with
    | insertProposal now prepared => exact .reloadProposal now prepared
  | @toSave _ principal action decided member judged =>
    obtain ⟨tenant, separate, _, copied⟩ := judge_ok judged
    cases ok with
    | loadToDecide role =>
      -- the copy still has the status and the proposer that the check saw
      have verdict : Verdict db.actions.rows principal decided := by
        subst copied
        exact ⟨⟨role, tenant, separate.symm⟩, rfl, decidedStatus_cases _, action, member, rfl⟩
      have sameId : action.id = decided.id := by
        subst copied
        rfl
      rw [sameId]
      exact .saveDecision verdict
  | @toApply _ action member planned =>
    cases ok with
    | loadToExecute =>
      have approved := planExecution_apply planned
      exact .applyDecision ⟨approved, action, member, rfl, .inl approved, rfl⟩
  | toReconsider =>
    cases ok with
    | saveExecution => exact .reloadExecution
  | settles => exact .returned

/-- A decide call that ends without a commit of its own ends in an error. -/
theorem Settles.decide_error {id : UUID} {approval : ApprovalRequest} {principal : Principal}
    {response : Response} (settles : Settles db call (.ok response))
    (ok : CallOk rows (.decide id approval principal) call) :
    call = .returned (.ok response) := by
  generalize outcome : Except.ok response = result at settles
  cases settles with
  | failed => cases outcome
  | looked => cases ok
  | reloaded => cases ok
  | replayed => cases ok
  | overtaken => cases ok
  | again => rfl

/-! ## The invariant -/

/-- The committed decision `status` and the current status of the row. -/
def Follows (status current : ActionStatus) : Prop :=
  current = status ∨ (status = .approved ∧ current = .executed)

/-- Two entries of the history that record a decision of the same action. -/
def SameDecision (e e' : Nat × Event) : Prop :=
  ∃ id p p' status status', e.2 = .decided id p status ∧ e'.2 = .decided id p' status'

instance : Std.Symm fun e e' => ¬ SameDecision e e' where
  symm e e' differ := by
    rintro ⟨id, p, p', status, status', first, second⟩
    exact differ ⟨id, p', p, status', status, second, first⟩

structure Governed (rows : List GovernedAction) (calls : List InFlight)
    (history : List (Nat × Event)) : Prop where
  callsOk : ∀ c ∈ calls, CallOk rows c.request c.call
  decided : ∀ a ∈ rows, a.status ≠ .pendingApproval →
    ∃ index principal status, (index, .decided a.id principal status) ∈ history ∧
      MayDecide principal a ∧ a.approverId = some principal.subject ∧ Follows status a.status ∧
      (status = .approved ∨ status = .rejected)
  pending : ∀ a ∈ rows, a.status = .pendingApproval →
    ∀ index principal status, (index, .decided a.id principal status) ∉ history
  known : ∀ index id principal status, (index, .decided id principal status) ∈ history →
    ∃ a ∈ rows, a.id = id
  once : history.Pairwise fun e e' => ¬ SameDecision e e'
  attributed : ∀ index id principal status, (index, .decided id principal status) ∈ history →
    ∃ c approval, calls[index]? = some c ∧ c.request = .decide id approval principal
  returned : ∀ index id approval principal response,
    calls[index]? = some ⟨.decide id approval principal, .returned (.ok response)⟩ →
    ∃ status, (index, .decided id principal status) ∈ history
  applied : ∀ index id key arguments, (index, .applied id key arguments) ∈ history →
    ∃ a ∈ rows, a.id = id ∧ a.idempotencyKey = key ∧ a.arguments = arguments ∧
      PastApproval a.status

theorem Governed.nil : Governed [] [] [] where
  callsOk := by simp
  decided := by simp
  pending := by simp
  known := by simp
  once := .nil
  attributed := by simp
  returned := by simp
  applied := by simp

theorem Governed.callsOk_evolve (governed : Governed rows calls history)
    (evolve : RowsEvolve rows rows') : ∀ c ∈ calls, CallOk rows' c.request c.call :=
  fun c member => (governed.callsOk c member).evolve evolve

theorem Governed.known_evolve (governed : Governed rows calls history)
    (evolve : RowsEvolve rows rows') (index : Nat) (id : UUID) (principal : Principal)
    (status : ActionStatus) (recorded : (index, .decided id principal status) ∈ history) :
    ∃ a ∈ rows', a.id = id := by
  obtain ⟨old, member, rfl⟩ := governed.known index id principal status recorded
  obtain ⟨row, rowMember, evolves⟩ := evolve old member
  exact ⟨row, rowMember, evolves.id⟩

theorem Governed.applied_evolve (governed : Governed rows calls history)
    (evolve : RowsEvolve rows rows') (index : Nat) (id key : UUID)
    (arguments : SupplierDecisionArguments)
    (recorded : (index, .applied id key arguments) ∈ history) :
    ∃ a ∈ rows', a.id = id ∧ a.idempotencyKey = key ∧ a.arguments = arguments ∧
      PastApproval a.status := by
  obtain ⟨old, member, rfl, rfl, rfl, past⟩ := governed.applied index id key arguments recorded
  obtain ⟨row, rowMember, evolves⟩ := evolve old member
  exact ⟨row, rowMember, evolves.id, congrArg ActionIdentity.idempotencyKey evolves.identity,
    congrArg ActionIdentity.arguments evolves.identity, (evolves.pastApproval past).1⟩

/-- Rows that change only in columns outside the lifecycle. -/
theorem Governed.of_map (governed : Governed rows calls history) (f : GovernedAction → GovernedAction)
    (identity : ∀ a, (f a).identity = a.identity) (status : ∀ a, (f a).status = a.status)
    (approver : ∀ a, (f a).approverId = a.approverId) :
    Governed (rows.map f) calls history := by
  have evolve : RowsEvolve rows (rows.map f) := fun a member =>
    ⟨f a, List.mem_map_of_mem member, identity a, .inl (status a), fun _ => approver a⟩
  have sameId : ∀ a, (f a).id = a.id := fun a => congrArg ActionIdentity.id (identity a)
  have sameTenant : ∀ a, (f a).tenantId = a.tenantId :=
    fun a => congrArg ActionIdentity.tenantId (identity a)
  have sameProposer : ∀ a, (f a).proposerId = a.proposerId :=
    fun a => congrArg ActionIdentity.proposerId (identity a)
  refine ⟨governed.callsOk_evolve evolve, ?_, ?_, governed.known_evolve evolve, governed.once,
    governed.attributed, governed.returned, governed.applied_evolve evolve⟩
  · intro a' member left
    obtain ⟨a, old, rfl⟩ := List.mem_map.mp member
    rw [status] at left
    obtain ⟨index, principal, st, recorded, may, approved, follows, kind⟩ :=
      governed.decided a old left
    refine ⟨index, principal, st, ?_, ⟨may.role, ?_, ?_⟩, ?_, ?_, kind⟩
    · rw [sameId]; exact recorded
    · rw [sameTenant]; exact may.tenant
    · rw [sameProposer]; exact may.separate
    · rw [approver]; exact approved
    · rw [status]; exact follows
  · intro a' member pending
    obtain ⟨a, old, rfl⟩ := List.mem_map.mp member
    rw [status] at pending
    rw [sameId]
    exact governed.pending a old pending

theorem Governed.submit (governed : Governed rows calls history) (now : Datetime)
    (request : Request) :
    Governed rows (calls ++ [⟨request, .enter now request⟩]) history := by
  refine ⟨?_, governed.decided, governed.pending, governed.known, governed.once, ?_, ?_,
    governed.applied⟩
  · intro c member
    rcases List.mem_append.mp member with old | new
    · exact governed.callsOk c old
    · rw [List.mem_singleton.mp new]
      exact Call.enter_ok rows now request
  · intro index id principal status recorded
    obtain ⟨c, approval, at_, same⟩ := governed.attributed index id principal status recorded
    exact ⟨c, approval, List.getElem?_append_left (List.getElem?_eq_some_iff.mp at_).1 ▸ at_, same⟩
  · intro index id approval principal response at_
    rw [List.getElem?_append] at at_
    split at at_
    · exact governed.returned index id approval principal response at_
    · rw [List.getElem?_singleton] at at_
      split at at_
      · simp only [Option.some.injEq, InFlight.mk.injEq] at at_
        obtain ⟨rfl, entered⟩ := at_
        simp only [Call.enter] at entered
        split at entered <;> simp at entered
      · cases at_

/-- Call `index` moves on to `call'`. -/
theorem Governed.setCall {index : Nat} (governed : Governed rows calls history)
    (at_ : calls[index]? = some ⟨request, call⟩) (ok : CallOk rows request call')
    (ends : ∀ id approval principal response, request = .decide id approval principal →
      call' = .returned (.ok response) →
      ∃ status, (index, .decided id principal status) ∈ history) :
    Governed rows (calls.set index ⟨request, call'⟩) history := by
  refine ⟨?_, governed.decided, governed.pending, governed.known, governed.once, ?_, ?_,
    governed.applied⟩
  · intro c member
    rcases List.mem_or_eq_of_mem_set member with old | rfl
    · exact governed.callsOk c old
    · exact ok
  · intro index' id principal status recorded
    obtain ⟨c, approval, old, same⟩ := governed.attributed index' id principal status recorded
    by_cases moved : index = index'
    · subst moved
      cases at_.symm.trans old
      have bound := (List.getElem?_eq_some_iff.mp at_).1
      exact ⟨⟨request, call'⟩, approval, by simp [bound], same⟩
    · exact ⟨c, approval, by rw [List.getElem?_set_ne moved]; exact old, same⟩
  · intro index' id approval principal response at_
    rw [List.getElem?_set] at at_
    split at at_
    next same =>
      subst same
      split at at_
      · simp only [Option.some.injEq, InFlight.mk.injEq] at at_
        exact ends id approval principal response at_.1 at_.2
      · cases at_
    next => exact governed.returned index' id approval principal response at_

theorem Governed.insertRow (governed : Governed rows calls history)
    (fresh : ∀ old ∈ rows, old.id ≠ a.id) (pending : a.status = .pendingApproval) :
    Governed (rows ++ [a]) calls history := by
  have evolve : RowsEvolve rows (rows ++ [a]) := .of_subset (List.subset_append_left rows [a])
  refine ⟨governed.callsOk_evolve evolve, ?_, ?_, governed.known_evolve evolve, governed.once,
    governed.attributed, governed.returned, governed.applied_evolve evolve⟩
  · intro b member left
    rcases List.mem_append.mp member with old | new
    · exact governed.decided b old left
    · rw [List.mem_singleton.mp new] at left
      exact absurd pending left
  · intro b member pending' index principal status recorded
    rcases List.mem_append.mp member with old | new
    · exact governed.pending b old pending' index principal status recorded
    · obtain ⟨old, oldMember, same⟩ := governed.known index b.id principal status recorded
      rw [List.mem_singleton.mp new] at same
      exact fresh old oldMember same

/-! ### Transitions

The row that a transition rewrites is the only one with its identifier, so the stale copy
and the row agree wherever `CallOk` relates the copy to some row with that identifier. -/

theorem mem_transitionRows {row : GovernedAction} (member : row ∈ transitionRows a rows) :
    (∃ old ∈ rows, old.id = a.id ∧ row = assignTransition a old) ∨ (row ∈ rows ∧ row.id ≠ a.id) := by
  obtain ⟨old, oldMember, rfl⟩ := List.mem_map.mp member
  split
  next same => exact .inl ⟨old, oldMember, same, rfl⟩
  next other => exact .inr ⟨oldMember, other⟩

/-- The row that a transition found is the only one it rewrites. -/
theorem only_row {record : GovernedAction} {id : UUID} (found : record ∈ db.actions.rows)
    (sameId : record.id = id) : ∀ old ∈ db.actions.rows, old.id = id → old = record :=
  fun _ member same => Table.eq_of_pk member found (same.trans sameId.symm)

theorem rowsEvolve_transition
    (moves : ∀ old ∈ rows, old.id = a.id → StatusMove old.status a.status ∧
      (old.status ≠ .pendingApproval → a.approverId = old.approverId)) :
    RowsEvolve rows (transitionRows a rows) := by
  intro old member
  refine ⟨_, List.mem_map_of_mem member, ?_⟩
  split
  next same =>
    obtain ⟨moved, approver⟩ := moves old member same
    exact ⟨rfl, .inr moved, approver⟩
  next => exact .refl old

/-- Writing a decision over the open row that it is about. -/
theorem Verdict.rowsEvolve {principal : Principal} {record : GovernedAction}
    (verdict : Verdict rows principal a)
    (only : ∀ old ∈ rows, old.id = a.id → old = record)
    (open_ : record.status = .pendingApproval) : RowsEvolve rows (transitionRows a rows) := by
  apply rowsEvolve_transition
  intro old member same
  rw [only old member same, open_]
  refine ⟨?_, fun left => absurd rfl left⟩
  rcases verdict.status with h | h <;> rw [h]
  · exact .approve
  · exact .reject

theorem Governed.decideRow {index : Nat} {principal : Principal} {record : GovernedAction}
    {approval : ApprovalRequest}
    (governed : Governed rows calls history) (verdict : Verdict rows principal a)
    (at_ : calls[index]? = some ⟨.decide a.id approval principal, call⟩)
    (only : ∀ old ∈ rows, old.id = a.id → old = record)
    (found : record ∈ rows) (sameId : record.id = a.id)
    (open_ : record.status = .pendingApproval) :
    Governed (transitionRows a rows) calls
      (history ++ [(index, .decided a.id principal a.status)]) := by
  obtain ⟨b, bMember, identity⟩ := verdict.row
  have copy : record.identity = a.identity := by
    rw [← only b bMember (congrArg ActionIdentity.id identity)]
    exact identity
  have evolve := verdict.rowsEvolve only open_
  refine ⟨governed.callsOk_evolve evolve, ?_, ?_, ?_, ?_, ?_, ?_, ?_⟩
  · -- the decided row has this decision in the history, the others have theirs from before
    intro row member left
    rcases mem_transitionRows member with ⟨old, oldMember, same, rfl⟩ | ⟨old, _⟩
    · have tenant : old.tenantId = a.tenantId := by
        rw [only old oldMember same]
        exact congrArg ActionIdentity.tenantId copy
      have proposer : old.proposerId = a.proposerId := by
        rw [only old oldMember same]
        exact congrArg ActionIdentity.proposerId copy
      refine ⟨index, principal, a.status, ?_, ⟨verdict.may.role, ?_, ?_⟩, verdict.approver,
        .inl rfl, verdict.status⟩
      · simp [assignTransition, same]
      · simpa only [assignTransition, tenant] using verdict.may.tenant
      · simpa only [assignTransition, proposer] using verdict.may.separate
    · obtain ⟨i, p, status, recorded, rest⟩ := governed.decided row old left
      exact ⟨i, p, status, List.mem_append_left _ recorded, rest⟩
  · intro row member pending i p status recorded
    rcases mem_transitionRows member with ⟨old, oldMember, same, rfl⟩ | ⟨old, other⟩
    · simp only [assignTransition] at pending
      rcases verdict.status with h | h <;> rw [h] at pending <;> cases pending
    · rcases List.mem_append.mp recorded with before | now
      · exact governed.pending row old pending i p status before
      · simp only [List.mem_singleton, Prod.mk.injEq, Event.decided.injEq] at now
        exact other now.2.1
  · intro i id p status recorded
    rcases List.mem_append.mp recorded with before | now
    · exact governed.known_evolve evolve i id p status before
    · simp only [List.mem_singleton, Prod.mk.injEq, Event.decided.injEq] at now
      obtain ⟨row, rowMember, evolves⟩ := evolve record found
      exact ⟨row, rowMember, evolves.id.trans (sameId.trans now.2.1.symm)⟩
  · -- the row was pending, so no decision of it came before
    rw [List.pairwise_append]
    refine ⟨governed.once, List.pairwise_singleton _ _, ?_⟩
    intro e member e' single
    rw [List.mem_singleton.mp single]
    rintro ⟨id, p, p', status, status', first, second⟩
    simp only [Event.decided.injEq] at second
    obtain ⟨rfl, _, _⟩ := second
    apply governed.pending record found open_ e.1 p status
    rw [sameId, ← first]
    exact member
  · intro i id p status recorded
    rcases List.mem_append.mp recorded with before | now
    · exact governed.attributed i id p status before
    · simp only [List.mem_singleton, Prod.mk.injEq, Event.decided.injEq] at now
      obtain ⟨rfl, rfl, rfl, _⟩ := now
      exact ⟨_, approval, at_, rfl⟩
  · intro i id approval p response at_
    obtain ⟨status, recorded⟩ := governed.returned i id approval p response at_
    exact ⟨status, List.mem_append_left _ recorded⟩
  · intro i id key arguments recorded
    rcases List.mem_append.mp recorded with before | now
    · exact governed.applied_evolve evolve i id key arguments before
    · simp at now

/-- The approver of an approved copy is the approver of the row. -/
theorem ApprovedCopy.approver {record : GovernedAction} (copy : ApprovedCopy rows a)
    (only : ∀ old ∈ rows, old.id = a.id → old = record) : a.approverId = record.approverId := by
  obtain ⟨b, member, identity, _, approver⟩ := copy.row
  rw [← only b member (congrArg ActionIdentity.id identity)]
  exact approver.symm

/-- Writing the receipt over a row that is approved still. -/
theorem ApprovedCopy.rowsEvolve {receipt : ExecutionReceipt} {record : GovernedAction}
    (copy : ApprovedCopy rows a) (only : ∀ old ∈ rows, old.id = a.id → old = record)
    (approved : record.status = .approved) :
    RowsEvolve rows (transitionRows (executedAction a receipt) rows) := by
  apply rowsEvolve_transition
  intro old member same
  rw [only old member same, approved]
  exact ⟨.execute, fun _ => copy.approver only⟩

theorem Governed.executeRow {receipt : ExecutionReceipt} {record : GovernedAction}
    (governed : Governed rows calls history) (copy : ApprovedCopy rows a)
    (only : ∀ old ∈ rows, old.id = a.id → old = record)
    (approved : record.status = .approved) :
    Governed (transitionRows (executedAction a receipt) rows) calls history := by
  have evolve := @ApprovedCopy.rowsEvolve _ _ receipt _ copy only approved
  refine ⟨governed.callsOk_evolve evolve, ?_, ?_, governed.known_evolve evolve, governed.once,
    governed.attributed, governed.returned, governed.applied_evolve evolve⟩
  · intro row member left
    rcases mem_transitionRows member with ⟨old, oldMember, same, rfl⟩ | ⟨old, _⟩
    · -- the decision recorded for the approved row stands for the executed one
      have isRecord := only old oldMember same
      subst isRecord
      obtain ⟨i, p, status, recorded, may, by_, follows, kind⟩ :=
        governed.decided old oldMember (by rw [approved]; decide)
      refine ⟨i, p, status, recorded, ⟨may.role, may.tenant, may.separate⟩, ?_, ?_, kind⟩
      · show a.approverId = some p.subject
        rw [copy.approver only]
        exact by_
      · rcases follows with current | ⟨_, current⟩
        · exact .inr ⟨current.symm.trans approved, rfl⟩
        · rw [approved] at current
          cases current
    · exact governed.decided row old left
  · intro row member pending
    rcases mem_transitionRows member with ⟨old, oldMember, same, rfl⟩ | ⟨old, _⟩
    · cases pending
    · exact governed.pending row old pending

theorem decided_mem_concat_applied {index i : Nat} {id id' key : UUID} {p : Principal}
    {status : ActionStatus} {arguments : SupplierDecisionArguments} :
    (i, Event.decided id p status) ∈ history ++ [(index, .applied id' key arguments)] ↔
      (i, Event.decided id p status) ∈ history := by
  simp

theorem Governed.recordApplied {index : Nat} (governed : Governed rows calls history)
    (copy : ApprovedCopy rows a) :
    Governed rows calls
      (history ++ [(index, .applied a.id a.idempotencyKey a.arguments)]) := by
  refine ⟨governed.callsOk, ?_, ?_, ?_, ?_, ?_, ?_, ?_⟩
  · intro b member left
    obtain ⟨i, p, status, recorded, rest⟩ := governed.decided b member left
    exact ⟨i, p, status, List.mem_append_left _ recorded, rest⟩
  · intro b member pending i p status recorded
    exact governed.pending b member pending i p status (decided_mem_concat_applied.mp recorded)
  · intro i id p status recorded
    exact governed.known i id p status (decided_mem_concat_applied.mp recorded)
  · rw [List.pairwise_append]
    refine ⟨governed.once, List.pairwise_singleton _ _, ?_⟩
    intro e _ e' single
    rw [List.mem_singleton.mp single]
    rintro ⟨id, p, p', status, status', _, second⟩
    cases second
  · intro i id p status recorded
    exact governed.attributed i id p status (decided_mem_concat_applied.mp recorded)
  · intro i id approval p response at_
    obtain ⟨status, recorded⟩ := governed.returned i id approval p response at_
    exact ⟨status, List.mem_append_left _ recorded⟩
  · intro i id key arguments recorded
    rcases List.mem_append.mp recorded with before | now
    · exact governed.applied i id key arguments before
    · simp only [List.mem_singleton, Prod.mk.injEq, Event.applied.injEq] at now
      obtain ⟨_, rfl, rfl, rfl⟩ := now
      obtain ⟨b, member, identity, past, _⟩ := copy.row
      exact ⟨b, member, congrArg ActionIdentity.id identity,
        congrArg ActionIdentity.idempotencyKey identity,
        congrArg ActionIdentity.arguments identity, past⟩

/-! ## Steps -/

/-- One step of a call, on the rows. -/
theorem Advances.rowsEvolve {σ ε : Type} {system : SupplierSystem σ ε} {supplier : σ}
    {ambient : Ambient} {input : ε} {p : Progress σ}
    (advances : Advances system db supplier ambient input call p)
    (ok : CallOk db.actions.rows request call) : RowsEvolve db.actions.rows p.store.actions.rows := by
  have unchanged : RowsEvolve db.actions.rows db.actions.rows := .of_subset (List.Subset.refl _)
  cases advances with
  | reads | applies | applyRaises => exact unchanged
  | inserts committed =>
    obtain ⟨_, _, rows, _⟩ := insertProposal_some committed
    show RowsEvolve _ (Store.actions _).rows
    rw [rows]
    exact .of_subset (List.subset_append_left _ _)
  | decides committed =>
    obtain ⟨record, audit, found, sameId, open_, _, rfl⟩ := saveTransition_ok committed
    cases ok with
    | saveDecision verdict =>
      rw [applyTransition_rows]
      exact verdict.rowsEvolve (only_row found sameId) open_
  | executes committed =>
    obtain ⟨record, audit, found, sameId, approved, _, rfl⟩ := saveTransition_ok committed
    cases ok with
    | saveExecution copy =>
      rw [applyTransition_rows]
      exact copy.rowsEvolve (only_row found sameId) approved

/-- A row is created by a proposal, as a pending one. -/
theorem Advances.created {σ ε : Type} {system : SupplierSystem σ ε} {supplier : σ}
    {ambient : Ambient} {input : ε} {p : Progress σ}
    (advances : Advances system db supplier ambient input call p)
    (ok : CallOk db.actions.rows request call) (member : a ∈ p.store.actions.rows) :
    (∃ old ∈ db.actions.rows, old.id = a.id) ∨ a.status = .pendingApproval := by
  have kept : a ∈ db.actions.rows → ∃ old ∈ db.actions.rows, old.id = a.id :=
    fun old => ⟨a, old, rfl⟩
  -- a transition rewrites rows in place
  have transition : ∀ {b : GovernedAction}, a ∈ transitionRows b db.actions.rows →
      ∃ old ∈ db.actions.rows, old.id = a.id := by
    intro b rewritten
    rcases mem_transitionRows rewritten with ⟨old, oldMember, _, rfl⟩ | ⟨old, _⟩
    · exact ⟨old, oldMember, rfl⟩
    · exact kept old
  cases advances with
  | reads | applies | applyRaises => exact .inl (kept member)
  | inserts committed =>
    obtain ⟨_, _, rows, _⟩ := insertProposal_some committed
    rw [rows] at member
    rcases List.mem_append.mp member with old | new
    · exact .inl (kept old)
    · cases ok with
      | insertProposal now prepared =>
        rw [List.mem_singleton.mp new]
        exact .inr (prepareAction_pending prepared)
  | decides committed | executes committed =>
    obtain ⟨record, audit, _, _, _, _, rfl⟩ := saveTransition_ok committed
    rw [applyTransition_rows] at member
    exact .inl (transition member)

/-- The step lemma of the governance calls. -/
theorem Governed.advance {σ ε : Type} {system : SupplierSystem σ ε} {supplier : σ}
    {ambient : Ambient} {input : ε} {p : Progress σ} {index : Nat}
    (governed : Governed db.actions.rows calls history)
    (at_ : calls[index]? = some ⟨request, call⟩)
    (advances : Advances system db supplier ambient input call p) :
    Governed p.store.actions.rows (calls.set index ⟨request, p.call⟩)
      (history ++ p.events.map fun e => (index, e)) := by
  have ok : CallOk db.actions.rows request call := governed.callsOk _ (List.mem_of_getElem? at_)
  cases advances with
  | reads read =>
    simp only [List.map_nil, List.append_nil]
    refine governed.setCall at_ (read.callOk ok) ?_
    rintro id approval principal response rfl rfl
    cases read with
    | settles settles =>
      have same := settles.decide_error ok
      subst same
      exact governed.returned index id approval principal response at_
  | @inserts action _ committed =>
    obtain ⟨_, _, rows, _, _, fresh, _⟩ := insertProposal_some committed
    cases ok with
    | insertProposal now prepared =>
      have inserted : Governed (db.actions.rows ++ [recordFromAction action]) calls history :=
        governed.insertRow fresh (prepareAction_pending prepared)
      simp only [List.map_nil, List.append_nil]
      rw [rows]
      refine inserted.setCall at_ .returned ?_
      intro id approval principal response propose
      cases propose
  | @decides judged principal _ committed =>
    obtain ⟨record, audit, found, sameId, open_, _, rfl⟩ := saveTransition_ok committed
    cases ok with
    | saveDecision verdict =>
      rw [applyTransition_rows]
      refine (governed.decideRow verdict at_ (only_row found sameId) found sameId open_).setCall
        at_ .returned ?_
      intro id approval principal' response decide _
      cases decide
      exact ⟨judged.status, List.mem_append_right _ (List.mem_singleton.mpr rfl)⟩
  | applies =>
    cases ok with
    | applyDecision copy =>
      refine (governed.recordApplied copy).setCall at_ (.saveExecution copy) ?_
      intro id approval principal response execute
      cases execute
  | applyRaises =>
    cases ok with
    | applyDecision copy =>
      refine (governed.recordApplied copy).setCall at_ .returned ?_
      intro id approval principal response execute
      cases execute
  | executes committed =>
    obtain ⟨record, audit, found, sameId, approved, _, rfl⟩ := saveTransition_ok committed
    cases ok with
    | saveExecution copy =>
      simp only [List.map_nil, List.append_nil]
      rw [applyTransition_rows]
      refine (governed.executeRow copy (only_row found sameId) approved).setCall at_ .returned ?_
      intro id approval principal response execute
      cases execute

end SupplierAssurance.Governance

/-! ## Runs -/

namespace SupplierAssurance.World

open Python Lib Governance Outbox SqlAlchemyOutboxRepository

variable {σ ε ω φ : Type} {platform : Platform σ ε ω φ} {w w' : World σ ω} {label : Label ε φ}

/-- The lifecycle invariant on a world. -/
def Governed (w : World σ ω) : Prop :=
  Governance.Governed w.store.actions.rows w.calls w.history

theorem governed_step (governed : w.Governed) (moved : step platform w label = some w') :
    w'.Governed := by
  cases step_moves moved with
  | submit request now => exact Governance.Governed.submit governed now request
  | advance at_ advances => exact Governance.Governed.advance governed at_ advances
  | acknowledge _ _ acknowledged =>
    cases acknowledged with
    | unchanged | failed => exact governed
    | published =>
      show Governance.Governed (Table.rows _) _ _
      rw [publish_actions]
      apply Governance.Governed.of_map governed <;> intro a <;> split <;> rfl
  | claim | load | start | crash | storeCase | storeReview => exact governed

theorem governed_inductive : Inductive platform (@Governed σ ω) where
  initial _ _ _ _ := Governance.Governed.nil
  keep := governed_step

theorem rowsEvolve_step (governed : w.Governed) (moved : step platform w label = some w') :
    RowsEvolve w.store.actions.rows w'.store.actions.rows := by
  have unchanged : RowsEvolve w.store.actions.rows w.store.actions.rows :=
    .of_subset (List.Subset.refl _)
  cases step_moves moved with
  | advance at_ advances =>
    exact advances.rowsEvolve (governed.callsOk _ (List.mem_of_getElem? at_))
  | acknowledge _ _ acknowledged =>
    cases acknowledged with
    | unchanged | failed => exact unchanged
    | published =>
      show RowsEvolve _ (Table.rows _)
      rw [publish_actions]
      intro a member
      refine ⟨_, List.mem_map_of_mem member, ?_⟩
      split
      · exact ⟨rfl, .inl rfl, fun _ => rfl⟩
      · exact .refl a
  | submit | claim | load | start | crash | storeCase | storeReview => exact unchanged

theorem created_step (governed : w.Governed) (moved : step platform w label = some w')
    {a : GovernedAction} (member : a ∈ w'.store.actions.rows) :
    (∃ old ∈ w.store.actions.rows, old.id = a.id) ∨ a.status = .pendingApproval := by
  cases step_moves moved with
  | advance at_ advances =>
    exact advances.created (governed.callsOk _ (List.mem_of_getElem? at_)) member
  | acknowledge _ _ acknowledged =>
    cases acknowledged with
    | unchanged | failed => exact .inl ⟨a, member, rfl⟩
    | published =>
      change a ∈ Table.rows _ at member
      rw [publish_actions] at member
      obtain ⟨old, oldMember, rfl⟩ := List.mem_map.mp member
      refine .inl ⟨old, oldMember, ?_⟩
      split <;> rfl
  | submit | claim | load | start | crash | storeCase | storeReview =>
    exact .inl ⟨a, member, rfl⟩

/-- What a run does to each row: its identity stays and its status moves forward. -/
def RowsAdvance (w w' : World σ ω) : Prop :=
  ∀ a ∈ w.store.actions.rows, ∃ a' ∈ w'.store.actions.rows, a'.identity = a.identity ∧
    Relation.ReflTransGen StatusMove a.status a'.status

theorem RowsAdvance.trans {w₁ w₂ w₃ : World σ ω} (first : RowsAdvance w₁ w₂)
    (second : RowsAdvance w₂ w₃) : RowsAdvance w₁ w₃ := by
  intro a member
  obtain ⟨b, bMember, bIdentity, toB⟩ := first a member
  obtain ⟨c, cMember, cIdentity, toC⟩ := second b bMember
  exact ⟨c, cMember, cIdentity.trans bIdentity, toB.trans toC⟩

theorem rowsAdvance_steps (governed : w.Governed) (steps : Steps (step platform) w w') :
    RowsAdvance w w' := by
  apply steps.related governed
  · intro _ _ _ holds _ moved
    exact governed_step holds moved
  · intro w a member
    exact ⟨a, member, rfl, .refl⟩
  · exact RowsAdvance.trans
  · intro w _ w' holds _ moved a member
    obtain ⟨a', member', evolves⟩ := rowsEvolve_step holds moved a member
    refine ⟨a', member', evolves.identity, ?_⟩
    rcases evolves.status with same | move
    · rw [same]
    · exact .single move

/-- A call of the supplier system is about an action that is past approval by then. -/
theorem applied_step (governed : w.Governed) (moved : step platform w label = some w')
    {new : List (Nat × Event)} (grown : w'.history = w.history ++ new) {index : Nat} {id key : UUID}
    {arguments : SupplierDecisionArguments} (applied : (index, .applied id key arguments) ∈ new) :
    ∃ a ∈ w.store.actions.rows, a.id = id ∧ a.idempotencyKey = key ∧ a.arguments = arguments ∧
      PastApproval a.status := by
  have silent : w'.history = w.history → False := by
    intro same
    rw [same] at grown
    rw [List.self_eq_append_right.mp grown] at applied
    cases applied
  cases step_moves moved with
  | @advance i ambient input c p at_ advances =>
    have ok := governed.callsOk _ (List.mem_of_getElem? at_)
    have called : ∀ b : GovernedAction, ApprovedCopy w.store.actions.rows b →
        p.events = [.applied b.id b.idempotencyKey b.arguments] →
        ∃ a ∈ w.store.actions.rows, a.id = id ∧ a.idempotencyKey = key ∧
          a.arguments = arguments ∧ PastApproval a.status := by
      intro b copy events
      simp only [progressed, events, List.map_cons, List.map_nil] at grown
      rw [← List.append_cancel_left grown] at applied
      simp only [List.mem_singleton, Prod.mk.injEq, Event.applied.injEq] at applied
      obtain ⟨_, rfl, rfl, rfl⟩ := applied
      obtain ⟨a, member, identity, past, _⟩ := copy.row
      exact ⟨a, member, congrArg ActionIdentity.id identity,
        congrArg ActionIdentity.idempotencyKey identity,
        congrArg ActionIdentity.arguments identity, past⟩
    generalize c.call = call at advances ok
    cases advances with
    | reads | inserts | executes => exact (silent (by simp [progressed])).elim
    | decides =>
      simp only [progressed, List.map_cons, List.map_nil] at grown
      rw [← List.append_cancel_left grown] at applied
      simp at applied
    | applies =>
      generalize c.request = request at ok
      cases ok with
      | applyDecision copy => exact called _ copy rfl
    | applyRaises =>
      generalize c.request = request at ok
      cases ok with
      | applyDecision copy => exact called _ copy rfl
  | submit | claim | load | start | acknowledge | crash | storeCase | storeReview =>
    exact (silent rfl).elim

/-! ## The lifecycle of every action, in every interleaving -/

/-- The approver of `a`: who decided it, in which call, and with which authority. -/
structure DecidedBy (w : World σ ω) (a : GovernedAction) (principal : Principal) : Prop where
  approverId : a.approverId = some principal.subject
  separate : principal.subject ≠ a.proposerId
  role : .approver ∈ principal.roles ∨ .admin ∈ principal.roles
  tenant : principal.tenantId = a.tenantId ∨ .admin ∈ principal.roles
  committed : ∃ index status approval call, (index, .decided a.id principal status) ∈ w.history ∧
    w.calls[index]? = some ⟨.decide a.id approval principal, call⟩

structure LifecycleSafe (platform : Platform σ ε ω φ) (w : World σ ω) : Prop where
  /-- One step keeps the identity of a row and moves its status at most once. -/
  moves : ∀ label w', step platform w label = some w' → ∀ a ∈ w.store.actions.rows,
    ∃ a' ∈ w'.store.actions.rows, a'.identity = a.identity ∧
      (a'.status = a.status ∨ StatusMove a.status a'.status)
  /-- A row that a step adds is pending. -/
  created : ∀ label w', step platform w label = some w' → ∀ a ∈ w'.store.actions.rows,
    (∃ old ∈ w.store.actions.rows, old.id = a.id) ∨ a.status = .pendingApproval
  /-- However the run goes on, the identity of a row stays. -/
  identity : ∀ w', Steps (step platform) w w' → ∀ a ∈ w.store.actions.rows,
    ∃ a' ∈ w'.store.actions.rows, a'.identity = a.identity ∧
      Relation.ReflTransGen StatusMove a.status a'.status
  decidedOnce : ∀ (i j : Nat) (id : UUID) (approval approval' : ApprovalRequest)
      (principal principal' : Principal) (response response' : Response),
    w.calls[i]? = some ⟨.decide id approval principal, .returned (.ok response)⟩ →
    w.calls[j]? = some ⟨.decide id approval' principal', .returned (.ok response')⟩ → i = j
  approver : ∀ a ∈ w.store.actions.rows,
    a.status = .approved ∨ a.status = .rejected ∨ a.status = .executed →
    ∃ principal, DecidedBy w a principal
  applied : ∀ label w' new, step platform w label = some w' → w'.history = w.history ++ new →
    ∀ index id key arguments, (index, .applied id key arguments) ∈ new →
    ∃ a ∈ w.store.actions.rows, a.id = id ∧ a.idempotencyKey = key ∧ a.arguments = arguments ∧
      PastApproval a.status ∧ ∃ j principal, (j, .decided id principal .approved) ∈ w.history

theorem hasRole_iff (principal : Principal) (role : Role) :
    principal.hasRole role = true ↔ role ∈ principal.roles ∨ .admin ∈ principal.roles := by
  simp [Principal.hasRole]

theorem decidedBy (governed : w.Governed) {a : GovernedAction} (member : a ∈ w.store.actions.rows)
    (left : a.status ≠ .pendingApproval) : ∃ principal, DecidedBy w a principal := by
  obtain ⟨index, principal, status, recorded, may, approver, _⟩ := governed.decided a member left
  obtain ⟨⟨request, call⟩, approval, at_, rfl⟩ :=
    governed.attributed index a.id principal status recorded
  exact ⟨principal, approver, may.separate, (hasRole_iff principal .approver).mp may.role,
    may.tenant.symm, index, status, approval, call, recorded, at_⟩

theorem decided_once (governed : w.Governed) {i j : Nat} {id : UUID} {p p' : Principal}
    {status status' : ActionStatus} (first : (i, .decided id p status) ∈ w.history)
    (second : (j, .decided id p' status') ∈ w.history) : i = j := by
  by_contra differ
  have apart := governed.once.forall first second fun same => differ (congrArg Prod.fst same)
  exact apart ⟨id, p, p', status, status', rfl, rfl⟩

/-- A row past approval has an approval in the history. -/
theorem approval_recorded (governed : w.Governed) {a : GovernedAction}
    (member : a ∈ w.store.actions.rows) (past : PastApproval a.status) :
    ∃ j principal, (j, .decided a.id principal .approved) ∈ w.history := by
  have left : a.status ≠ .pendingApproval := by
    rcases past with h | h <;> rw [h] <;> decide
  obtain ⟨j, principal, status, recorded, _, _, follows, kind⟩ := governed.decided a member left
  rcases kind with rfl | rfl
  · exact ⟨j, principal, recorded⟩
  · rcases follows with current | ⟨impossible, _⟩
    · rcases past with h | h <;> rw [h] at current <;> cases current
    · cases impossible

theorem reachable_lifecycleSafe (reachable : Reachable platform w) : LifecycleSafe platform w := by
  have governed : w.Governed := reachable.invariant governed_inductive
  refine ⟨?_, ?_, ?_, ?_, ?_, ?_⟩
  · intro label w' moved a member
    obtain ⟨a', member', evolves⟩ := rowsEvolve_step governed moved a member
    exact ⟨a', member', evolves.identity, evolves.status⟩
  · intro label w' moved a member
    exact created_step governed moved member
  · intro w' steps
    exact rowsAdvance_steps governed steps
  · intro i j id approval approval' principal principal' response response' first second
    obtain ⟨status, recorded⟩ := governed.returned i id approval principal response first
    obtain ⟨status', recorded'⟩ := governed.returned j id approval' principal' response' second
    exact decided_once governed recorded recorded'
  · intro a member settled
    apply decidedBy governed member
    rcases settled with h | h | h <;> rw [h] <;> decide
  · intro label w' new moved grown index id key arguments called
    obtain ⟨a, member, rfl, rfl, rfl, past⟩ := applied_step governed moved grown called
    exact ⟨a, member, rfl, rfl, rfl, past, approval_recorded governed member past⟩

/-- The full life of one action reaches an executed row. -/
theorem reachable_lifecycleSafe_executed :
    ∃ w, Reachable Sample.platform w ∧ w.store.actions.rows.map (·.status) = [.executed] ∧
      LifecycleSafe Sample.platform w := by
  have replayed : ((run (step Sample.platform)
      (initial [⟨0xa⟩, ⟨0xb⟩] [⟨0x1a⟩, ⟨0x1b⟩] [] ())
      (Sample.fullLife 0 Sample.proposalA Sample.approverA)).map fun w =>
        decide (w.store.actions.rows.map (·.status) = [.executed])) = some true := by
    decide +kernel
  obtain ⟨w, reachable, executed⟩ := reachable_of_run replayed
  exact ⟨w, reachable, of_decide_eq_true executed, reachable_lifecycleSafe reachable⟩

end SupplierAssurance.World
