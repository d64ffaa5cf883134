import Mathlib.Data.Set.Function
import SupplierAssurance.Governance.InMemory
import SupplierAssurance.Governance.Lifecycle
import SupplierAssurance.Outbox.Delivery

/-! # Proposals of several tenants

The identifier of an action is derived from the tenant of the principal, the idempotency index
is keyed by the tenant of the case.  The two differ for an administrator who proposes for a
case of another tenant, and then a second proposal by a principal of the administrator's
tenant may get the identifier of the first one.  The in-memory repository overwrites the
first action; the SQL repository refuses the second one.
-/

namespace SupplierAssurance.Governance

open Python Lib

/-- The name that `uuid5` turns into the action's identifier. -/
def ProposeRequest.idName (r : ProposeRequest) : String :=
  r.principal.tenantId ++ ":" ++ r.request.idempotencyKey.str

/-- `r'` proposes for another tenant's case under the tenant and the key of `r`. -/
structure SharesId (r r' : ProposeRequest) : Prop where
  principalTenant : r'.principal.tenantId = r.principal.tenantId
  key : r'.request.idempotencyKey = r.request.idempotencyKey
  caseTenant : r'.supplierCase.tenantId ≠ r.supplierCase.tenantId

/-- What an action keeps of the request it was built from. -/
structure BuiltFrom (a : GovernedAction) (r : ProposeRequest) : Prop where
  id : a.id = uuid5 NAMESPACE_URL r.idName
  tenantId : a.tenantId = r.supplierCase.tenantId
  key : a.idempotencyKey = r.request.idempotencyKey

theorem BuiltFrom.tenantKey {a : GovernedAction} {r : ProposeRequest} (built : BuiltFrom a r) :
    a.tenantKey = (r.supplierCase.tenantId, r.request.idempotencyKey) := by
  rw [GovernedAction.tenantKey, built.tenantId, built.key]

theorem BuiltFrom.of_prepare {a : GovernedAction} {r : ProposeRequest} {now : Datetime}
    (prepared : prepareAction r now = .ok a) : BuiltFrom a r := by
  obtain ⟨_, _, _, arguments, rfl⟩ := prepareAction_ok prepared
  exact ⟨rfl, rfl, rfl⟩

theorem BuiltFrom.of_identity {a b : GovernedAction} {r : ProposeRequest} (built : BuiltFrom a r)
    (identity : b.identity = a.identity) : BuiltFrom b r :=
  ⟨(congrArg ActionIdentity.id identity).trans built.id,
    (congrArg ActionIdentity.tenantId identity).trans built.tenantId,
    (congrArg ActionIdentity.idempotencyKey identity).trans built.key⟩

theorem SharesId.idName {r r' : ProposeRequest} (shares : SharesId r r') : r'.idName = r.idName := by
  rw [ProposeRequest.idName, ProposeRequest.idName, shares.principalTenant, shares.key]

theorem SharesId.same_id {a a' : GovernedAction} {r r' : ProposeRequest} (built : BuiltFrom a r)
    (built' : BuiltFrom a' r') (shares : SharesId r r') : a'.id = a.id := by
  rw [built.id, built'.id, shares.idName]

/-- With `uuid5` injective on the two names, equal identifiers of different index keys come
    from requests that share them. -/
theorem sharesId_of_same_id {a a' : GovernedAction} {r r' : ProposeRequest} {names : Set String}
    (built : BuiltFrom a r) (built' : BuiltFrom a' r')
    (injective : Set.InjOn (uuid5 NAMESPACE_URL) names) (named : r.idName ∈ names)
    (named' : r'.idName ∈ names) (sameId : a'.id = a.id) (differ : a'.tenantKey ≠ a.tenantKey) :
    SharesId r r' := by
  have sameName : r'.idName = r.idName := by
    apply injective named' named
    rw [← built.id, ← built'.id]
    exact sameId
  obtain ⟨principalTenant, key⟩ := scopedName_inj sameName
  refine ⟨principalTenant, key, ?_⟩
  intro sameTenant
  apply differ
  rw [built.tenantKey, built'.tenantKey, sameTenant, key]

/-! ## A sequence of calls over the in-memory repository -/

/-- The repository, the requests that created an action, and what was returned so far. -/
structure ProposalRun where
  repo : InMemoryActionRepository
  created : List (ProposeRequest × GovernedAction)
  returned : List GovernedAction

namespace ProposalRun

def empty : ProposalRun := ⟨.empty, [], []⟩

/-- The action that the call creates, if it does. -/
def creates (s : ProposalRun) (call : ProposeCall) : Option GovernedAction :=
  match call.action with
  | .error _ => none
  | .ok action =>
    if s.repo.idempotency action.tenantKey = none ∧ call.audit = none then some action else none

def propose (s : ProposalRun) (call : ProposeCall) : ProposalRun where
  repo := (proposeInMemory s.repo call).1
  created := s.created ++ (s.creates call).toList.map fun a => (call.request, a)
  returned :=
    match (proposeInMemory s.repo call).2 with
    | .ok a => s.returned ++ [a]
    | .error _ => s.returned

def proposeAll (calls : List ProposeCall) : ProposalRun :=
  calls.foldl propose empty

structure Safe (s : ProposalRun) : Prop where
  distinct : ∀ e ∈ s.created, ∀ e' ∈ s.created, e.2.tenantKey ≠ e'.2.tenantKey → e.2.id ≠ e'.2.id
  retrievable : ∀ a ∈ s.returned, ∃ b, s.repo.get a.id = .ok b ∧ b.tenantId = a.tenantId ∧
    b.caseId = a.caseId ∧ b.arguments = a.arguments
  indexed : ∀ tenantId key id, s.repo.idempotency (tenantId, key) = some id →
    ∃ a, s.repo.actions id = some a ∧ a.tenantId = tenantId ∧ a.idempotencyKey = key

/-- The call passes its checks and is new to the index, and an earlier request that created
    an action shares its identifier. -/
def Clashes (s : ProposalRun) (call : ProposeCall) : Prop :=
  ∃ action, call.action = .ok action ∧ s.repo.idempotency action.tenantKey = none ∧
    ∃ e ∈ s.created, SharesId call.request e.1

/-! ### What one call can do -/

inductive Proposes (s : ProposalRun) (call : ProposeCall) : ProposalRun → Prop
  | unchanged : (∀ action, call.action = .ok action → s.repo.idempotency action.tenantKey ≠ none) →
      Proposes s call s
  | found {action existing : GovernedAction} {id : UUID} : call.action = .ok action →
      s.repo.idempotency action.tenantKey = some id → s.repo.actions id = some existing →
      Proposes s call { s with returned := s.returned ++ [existing] }
  | creates {action : GovernedAction} : call.action = .ok action →
      s.repo.idempotency action.tenantKey = none →
      Proposes s call ⟨s.repo.storeProposal action, s.created ++ [(call.request, action)],
        s.returned ++ [action]⟩
  | auditRaises {action : GovernedAction} : call.action = .ok action →
      s.repo.idempotency action.tenantKey = none →
      Proposes s call { s with repo := (s.repo.storeProposal action).dropProposal action }

theorem propose_cases (s : ProposalRun) (call : ProposeCall) : Proposes s call (s.propose call) := by
  cases built : call.action with
  | error e =>
    have same : s.propose call = s := by
      simp [propose, creates, proposeInMemory, built]
    rw [same]
    exact .unchanged fun action impossible => by cases built.symm.trans impossible
  | ok action =>
    cases index : s.repo.idempotency action.tenantKey with
    | none =>
      cases audit : call.audit with
      | none =>
        have same : s.propose call = ⟨s.repo.storeProposal action,
            s.created ++ [(call.request, action)], s.returned ++ [action]⟩ := by
          simp [propose, creates, proposeInMemory, InMemoryActionRepository.createProposal, built,
            index, audit]
        rw [same]
        exact .creates built index
      | some detail =>
        have same : s.propose call =
            { s with repo := (s.repo.storeProposal action).dropProposal action } := by
          simp [propose, creates, proposeInMemory, InMemoryActionRepository.createProposal, built,
            index, audit]
        rw [same]
        exact .auditRaises built index
    | some id =>
      have known : ∀ a, call.action = .ok a → s.repo.idempotency a.tenantKey ≠ none := by
        intro a isAction
        cases built.symm.trans isAction
        simp [index]
      cases stored : s.repo.actions id with
      | none =>
        have same : s.propose call = s := by
          simp [propose, creates, proposeInMemory, InMemoryActionRepository.createProposal, built,
            index, stored]
        rw [same]
        exact .unchanged known
      | some existing =>
        by_cases conflict : existing.caseId ≠ action.caseId ∨ existing.reviewId ≠ action.reviewId
        · have same : s.propose call = s := by
            simp only [propose, creates, proposeInMemory, InMemoryActionRepository.createProposal,
              built, index, stored, settleProposal, if_pos conflict]
            simp
          rw [same]
          exact .unchanged known
        · have same : s.propose call = { s with returned := s.returned ++ [existing] } := by
            simp only [propose, creates, proposeInMemory, InMemoryActionRepository.createProposal,
              built, index, stored, settleProposal, if_neg conflict]
            simp
          rw [same]
          exact .found built index stored

theorem action_builtFrom {call : ProposeCall} {action : GovernedAction}
    (built : call.action = .ok action) : BuiltFrom action call.request := by
  unfold ProposeCall.action at built
  cases prepared : prepareAction call.request call.now with
  | error e => simp [prepared, bind, Except.bind] at built
  | ok a =>
    cases started : call.workflow with
    | error detail =>
      simp [prepared, started, bind, Except.bind, throw, throwThe, MonadExceptOf.throw] at built
    | ok reference =>
      simp only [prepared, started, bind, Except.bind, pure, Except.pure, Except.ok.injEq] at built
      subst built
      obtain ⟨id, tenantId, key⟩ := BuiltFrom.of_prepare prepared
      exact ⟨id, tenantId, key⟩

/-! ### Runs -/

/-- What the log says about itself, whatever the calls were. -/
structure Logged (calls : List ProposeCall) (s : ProposalRun) : Prop where
  built : ∀ e ∈ s.created, BuiltFrom e.2 e.1
  called : ∀ e ∈ s.created, ∃ call ∈ calls, call.request = e.1
  returned : ∀ e ∈ s.created, e.2 ∈ s.returned

theorem Logged.propose {calls : List ProposeCall} {s : ProposalRun} (logged : Logged calls s)
    (call : ProposeCall) : Logged (calls ++ [call]) (s.propose call) := by
  -- what was created stays created by a call of the longer list
  have called : ∀ e ∈ s.created, ∃ c ∈ calls ++ [call], c.request = e.1 := by
    intro e member
    obtain ⟨c, inCalls, same⟩ := logged.called e member
    exact ⟨c, List.mem_append_left _ inCalls, same⟩
  have shape := propose_cases s call
  generalize s.propose call = s' at shape
  cases shape with
  | unchanged => exact ⟨logged.built, called, logged.returned⟩
  | found =>
    refine ⟨logged.built, called, ?_⟩
    intro e member
    exact List.mem_append_left _ (logged.returned e member)
  | creates built index =>
    refine ⟨?_, ?_, ?_⟩
    · intro e member
      rcases List.mem_append.mp member with old | new
      · exact logged.built e old
      · rw [List.mem_singleton.mp new]
        exact action_builtFrom built
    · intro e member
      rcases List.mem_append.mp member with old | new
      · exact called e old
      · rw [List.mem_singleton.mp new]
        exact ⟨call, by simp, rfl⟩
    · intro e member
      rcases List.mem_append.mp member with old | new
      · exact List.mem_append_left _ (logged.returned e old)
      · rw [List.mem_singleton.mp new]
        simp
  | auditRaises => exact ⟨logged.built, called, logged.returned⟩

theorem proposeAll_concat (calls : List ProposeCall) (call : ProposeCall) :
    proposeAll (calls ++ [call]) = (proposeAll calls).propose call := by
  simp [proposeAll]

theorem logged_proposeAll (calls : List ProposeCall) : Logged calls (proposeAll calls) := by
  induction calls using List.reverseRecOn with
  | nil => constructor <;> simp [proposeAll, empty]
  | append_singleton calls call ih =>
    rw [proposeAll_concat]
    exact ih.propose call

/-- The repository holds exactly what was created. -/
structure Faithful (s : ProposalRun) : Prop where
  stored : ∀ e ∈ s.created, s.repo.actions e.2.id = some e.2
  index : ∀ e ∈ s.created, s.repo.idempotency e.2.tenantKey = some e.2.id
  indexed : ∀ key id, s.repo.idempotency key = some id →
    ∃ e ∈ s.created, e.2.tenantKey = key ∧ e.2.id = id
  actions : ∀ id a, s.repo.actions id = some a → ∃ e ∈ s.created, e.2 = a ∧ a.id = id
  returned : ∀ a ∈ s.returned, ∃ e ∈ s.created, e.2 = a

theorem Faithful.safe {s : ProposalRun} (faithful : Faithful s) : Safe s := by
  refine ⟨?_, ?_, ?_⟩
  · intro e member e' member' differ same
    have both : some e.2 = some e'.2 := by
      rw [← faithful.stored e member, ← faithful.stored e' member', same]
    exact differ (congrArg GovernedAction.tenantKey (Option.some.inj both))
  · intro a member
    obtain ⟨e, created, rfl⟩ := faithful.returned a member
    refine ⟨e.2, ?_, rfl, rfl, rfl⟩
    rw [InMemoryActionRepository.get, faithful.stored e created]
  · intro tenantId key id found
    obtain ⟨e, created, sameKey, rfl⟩ := faithful.indexed _ id found
    cases sameKey
    exact ⟨e.2, faithful.stored e created, rfl, rfl⟩

theorem Faithful.empty : Faithful ProposalRun.empty := by
  constructor <;> simp [ProposalRun.empty, InMemoryActionRepository.empty]

/-- A call that does not clash creates its action under a fresh identifier. -/
theorem Faithful.propose {s : ProposalRun} {call : ProposeCall} (faithful : Faithful s)
    (fresh : ∀ action, call.action = .ok action → s.repo.idempotency action.tenantKey = none →
      ∀ e ∈ s.created, e.2.id ≠ action.id) : Faithful (s.propose call) := by
  have shape := propose_cases s call
  generalize s.propose call = s' at shape
  cases shape with
  | unchanged => exact faithful
  | found _ index stored =>
    refine ⟨faithful.stored, faithful.index, faithful.indexed, faithful.actions, ?_⟩
    intro a member
    rcases List.mem_append.mp member with old | new
    · exact faithful.returned a old
    · rw [List.mem_singleton.mp new]
      obtain ⟨e, created, same, _⟩ := faithful.actions _ _ stored
      exact ⟨e, created, same⟩
  | @creates action built index =>
    have freshId := fresh action built index
    have freshKey : ∀ e ∈ s.created, e.2.tenantKey ≠ action.tenantKey := by
      intro e member same
      have used := faithful.index e member
      rw [same, index] at used
      cases used
    refine ⟨?_, ?_, ?_, ?_, ?_⟩
    · intro e member
      rcases List.mem_append.mp member with old | new
      · show Function.update s.repo.actions _ _ _ = _
        rw [Function.update_of_ne (freshId e old)]
        exact faithful.stored e old
      · rw [List.mem_singleton.mp new]
        exact Function.update_self ..
    · intro e member
      rcases List.mem_append.mp member with old | new
      · show Function.update s.repo.idempotency _ _ _ = _
        rw [Function.update_of_ne (freshKey e old)]
        exact faithful.index e old
      · rw [List.mem_singleton.mp new]
        exact Function.update_self ..
    · intro key id found
      change Function.update s.repo.idempotency _ _ _ = _ at found
      by_cases here : key = action.tenantKey
      · subst here
        rw [Function.update_self] at found
        cases found
        exact ⟨(call.request, action), by simp, rfl, rfl⟩
      · rw [Function.update_of_ne here] at found
        obtain ⟨e, created, rest⟩ := faithful.indexed key id found
        exact ⟨e, List.mem_append_left _ created, rest⟩
    · intro id a found
      change Function.update s.repo.actions _ _ _ = _ at found
      by_cases here : id = action.id
      · subst here
        rw [Function.update_self] at found
        cases found
        exact ⟨(call.request, action), by simp, rfl, rfl⟩
      · rw [Function.update_of_ne here] at found
        obtain ⟨e, created, same⟩ := faithful.actions id a found
        exact ⟨e, List.mem_append_left _ created, same⟩
    · intro a member
      rcases List.mem_append.mp member with old | new
      · obtain ⟨e, created, same⟩ := faithful.returned a old
        exact ⟨e, List.mem_append_left _ created, same⟩
      · rw [List.mem_singleton.mp new]
        exact ⟨(call.request, action), by simp, rfl⟩
  | @auditRaises action built index =>
    -- both assignments are undone, and neither had overwritten anything
    have unused : s.repo.actions action.id = none := by
      cases stored : s.repo.actions action.id with
      | none => rfl
      | some a =>
        obtain ⟨e, created, rfl, sameId⟩ := faithful.actions _ a stored
        exact absurd sameId (fresh action built index e created)
    have restored : (s.repo.storeProposal action).dropProposal action = s.repo := by
      simp only [InMemoryActionRepository.dropProposal, InMemoryActionRepository.storeProposal,
        Function.update_idem]
      rw [← unused, ← index, Function.update_eq_self, Function.update_eq_self]
    rw [restored]
    exact faithful

/-! ### Safety -/

/-- The names that the calls hand to `uuid5`. -/
def idNames (calls : List ProposeCall) : Set String :=
  { name | ∃ call ∈ calls, name = call.request.idName }

theorem faithful_proposeAll {calls done : List ProposeCall}
    (injective : Set.InjOn (uuid5 NAMESPACE_URL) (idNames calls)) (started : done <+: calls)
    (noClash : ∀ before call, before ++ [call] <+: calls → ¬ Clashes (proposeAll before) call) :
    Faithful (proposeAll done) := by
  induction done using List.reverseRecOn with
  | nil => exact .empty
  | append_singleton before call ih =>
    have faithful := ih ((List.prefix_append before [call]).trans started)
    have logged := logged_proposeAll before
    rw [proposeAll_concat]
    apply faithful.propose
    intro action built index e created sameId
    have inCalls : ∀ c ∈ before ++ [call], c ∈ calls := fun c member => started.subset member
    obtain ⟨earlier, earlierMember, request⟩ := logged.called e created
    have differ : e.2.tenantKey ≠ action.tenantKey := by
      intro same
      have used := faithful.index e created
      rw [same, index] at used
      cases used
    refine noClash before call started ⟨action, built, index, e, created, ?_⟩
    exact sharesId_of_same_id (action_builtFrom built) (logged.built e created) injective
      ⟨call, inCalls call (by simp), rfl⟩
      ⟨earlier, inCalls earlier (by simp [earlierMember]), by rw [request]⟩ sameId differ

/-- A clash overwrites the earlier action, or removes it when the audit writer raises. -/
theorem not_safe_of_clashes {calls : List ProposeCall} {call : ProposeCall}
    (clashes : Clashes (proposeAll calls) call) : ¬ Safe (proposeAll (calls ++ [call])) := by
  obtain ⟨action, built, index, e, created, shares⟩ := clashes
  have logged := logged_proposeAll calls
  have newBuilt := action_builtFrom built
  have oldBuilt := logged.built e created
  have sameId : e.2.id = action.id := shares.same_id newBuilt oldBuilt
  rw [proposeAll_concat]
  have shape := propose_cases (proposeAll calls) call
  generalize (proposeAll calls).propose call = s' at shape
  intro safe
  cases shape with
  | unchanged known => exact known action built index
  | found built' index' =>
    cases built.symm.trans built'
    rw [index] at index'
    cases index'
  | creates built' _ =>
    cases built.symm.trans built'
    refine safe.distinct e (List.mem_append_left _ created) (call.request, action) (by simp) ?_
      sameId
    rw [oldBuilt.tenantKey, newBuilt.tenantKey]
    exact fun same => shares.caseTenant (congrArg Prod.fst same)
  | auditRaises built' _ =>
    cases built.symm.trans built'
    -- the undo of the new action has removed the old one
    obtain ⟨b, found, _⟩ := safe.retrievable e.2 (logged.returned e created)
    simp [InMemoryActionRepository.get, InMemoryActionRepository.dropProposal, sameId] at found

end ProposalRun

end SupplierAssurance.Governance

/-! ## Every interleaving over the SQL repository -/

namespace SupplierAssurance.World

open Python Lib Governance Outbox SqlAlchemyOutboxRepository
open SqlAlchemyActionRepository (insertProposal insertProposal_some saveTransition_ok
  applyTransition_rows recordFromAction)

variable {σ ε ω φ : Type} {platform : Platform σ ε ω φ} {w w' : World σ ω} {label : Label ε φ}

def requests (w : World σ ω) : List Request := w.calls.map (·.request)

/-- Every action was built from a request that was made, and every proposal that was returned
    is stored. -/
structure Proposed (w : World σ ω) : Prop where
  origin : ∀ a ∈ w.store.actions.rows, ∃ r, .propose r ∈ w.requests ∧ BuiltFrom a r
  answered : ∀ c ∈ w.calls, ∀ r a, c.request = .propose r → c.call = .returned (.ok (.action a)) →
    ∃ b ∈ w.store.actions.rows, b.identity = a.identity

/-- A row after a step is an old row or comes from the proposal that was inserted. -/
theorem advances_origin {system : SupplierSystem σ ε} {db : Store} {supplier : σ} {ambient : Ambient}
    {input : ε} {request : Request} {call : Call} {p : Progress σ} {a : GovernedAction}
    (ok : CallOk db.actions.rows request call)
    (advances : Advances system db supplier ambient input call p)
    (member : a ∈ p.store.actions.rows) :
    (∃ old ∈ db.actions.rows, a.identity = old.identity) ∨
      ∃ r, request = .propose r ∧ BuiltFrom a r := by
  cases advances with
  | reads | applies | applyRaises => exact .inl ⟨a, member, rfl⟩
  | inserts committed =>
    obtain ⟨_, _, rows, _⟩ := insertProposal_some committed
    change a ∈ (Store.actions _).rows at member
    rw [rows] at member
    rcases List.mem_append.mp member with old | new
    · exact .inl ⟨a, old, rfl⟩
    · cases ok with
      | insertProposal now prepared =>
        rw [List.mem_singleton.mp new]
        obtain ⟨id, tenantId, key⟩ := BuiltFrom.of_prepare prepared
        exact .inr ⟨_, rfl, id, tenantId, key⟩
  | decides committed | executes committed =>
    obtain ⟨record, audit, _, _, _, _, rfl⟩ := saveTransition_ok committed
    rw [applyTransition_rows] at member
    rcases mem_transitionRows member with ⟨old, oldMember, _, rfl⟩ | ⟨old, _⟩
    · exact .inl ⟨old, oldMember, rfl⟩
    · exact .inl ⟨a, old, rfl⟩

theorem settleProposal_ok {action stored a : GovernedAction}
    (settled : (settleProposal action stored).map Response.action = .ok (.action a)) :
    a = stored := by
  unfold settleProposal at settled
  split at settled
  · cases settled
  · cases settled
    rfl

/-- A proposal that is returned is stored by then. -/
theorem advances_answer {system : SupplierSystem σ ε} {db : Store} {supplier : σ} {ambient : Ambient}
    {input : ε} {r : ProposeRequest} {call : Call} {p : Progress σ} {a : GovernedAction}
    (ok : CallOk db.actions.rows (.propose r) call)
    (advances : Advances system db supplier ambient input call p)
    (returns : p.call = .returned (.ok (.action a))) :
    call = .returned (.ok (.action a)) ∨ ∃ b ∈ p.store.actions.rows, b.identity = a.identity := by
  cases advances with
  | reads read =>
    cases returns
    cases read with
    | settles settles =>
      generalize outcome : Except.ok (Response.action a) = result at settles
      cases settles with
      | failed => cases outcome
      | looked found | reloaded found =>
        rw [settleProposal_ok outcome.symm]
        exact .inr ⟨_, (Table.findAlt?_eq_some.mp found).1, rfl⟩
      | replayed | overtaken => cases outcome
      | again => exact .inl rfl
  | inserts committed =>
    obtain ⟨_, _, rows, _⟩ := insertProposal_some committed
    cases returns
    refine .inr ⟨recordFromAction a, ?_, rfl⟩
    show _ ∈ (Store.actions _).rows
    rw [rows]
    simp
  | decides | applies | applyRaises | executes => cases ok

theorem requests_set {calls : List InFlight} {index : Nat} {c : InFlight} {call : Call}
    (at_ : calls[index]? = some c) :
    (calls.set index ⟨c.request, call⟩).map (·.request) = calls.map (·.request) := by
  obtain ⟨bound, rfl⟩ := List.getElem?_eq_some_iff.mp at_
  apply List.ext_getElem?
  intro i
  rw [List.map_set, List.getElem?_set]
  by_cases here : index = i
  · subst here
    simp [bound]
  · simp [here]

theorem proposed_step (governed : w.Governed) (proposed : w.Proposed)
    (moved : step platform w label = some w') : w'.Proposed := by
  have stored : ∀ {a : GovernedAction}, (∃ b ∈ w.store.actions.rows, b.identity = a.identity) →
      ∃ b ∈ w'.store.actions.rows, b.identity = a.identity := by
    rintro a ⟨b, member, identity⟩
    obtain ⟨b', member', evolves⟩ := rowsEvolve_step governed moved b member
    exact ⟨b', member', evolves.identity.trans identity⟩
  have answered : ∀ c ∈ w.calls, ∀ r a, c.request = .propose r →
      c.call = .returned (.ok (.action a)) →
      ∃ b ∈ w'.store.actions.rows, b.identity = a.identity :=
    fun c member r a request returned => stored (proposed.answered c member r a request returned)
  cases step_moves moved with
  | submit request now =>
    constructor
    · intro a member
      obtain ⟨r, requested, built⟩ := proposed.origin a member
      exact ⟨r, by simpa [requests] using Or.inl (by simpa [requests] using requested), built⟩
    · intro c member r a isPropose returned
      rcases List.mem_append.mp member with old | new
      · exact answered c old r a isPropose returned
      · rw [List.mem_singleton.mp new] at isPropose returned
        cases isPropose
        simp only [Call.enter] at returned
        split at returned <;> cases returned
  | @advance index ambient input c p at_ advances =>
    have member := List.mem_of_getElem? at_
    have ok := governed.callsOk _ member
    have same : (w.progressed index c.request p).requests = w.requests := requests_set at_
    constructor
    · intro a aMember
      rw [same]
      rcases advances_origin ok advances aMember with ⟨old, oldMember, identity⟩ | ⟨r, isPropose, built⟩
      · obtain ⟨r, requested, built⟩ := proposed.origin old oldMember
        exact ⟨r, requested, built.of_identity identity⟩
      · exact ⟨r, List.mem_map.mpr ⟨c, member, isPropose⟩, built⟩
    · intro c' cMember r a isPropose returned
      rcases List.mem_or_eq_of_mem_set cMember with old | rfl
      · exact answered c' old r a isPropose returned
      · change c.request = _ at isPropose
        rw [isPropose] at ok
        rcases advances_answer ok advances returned with before | now
        · exact answered c member r a isPropose before
        · exact now
  | acknowledge _ _ acknowledged =>
    refine ⟨?_, answered⟩
    cases acknowledged with
    | unchanged | failed => exact proposed.origin
    | published =>
      intro a' member
      change a' ∈ (publish _ _ _ _ _ _).actions.rows at member
      rw [publish_actions] at member
      obtain ⟨a, old, rfl⟩ := List.mem_map.mp member
      obtain ⟨r, requested, id, tenantId, key⟩ := proposed.origin a old
      refine ⟨r, requested, ?_⟩
      split <;> exact ⟨id, tenantId, key⟩
  | claim | load | start | crash | storeCase | storeReview => exact ⟨proposed.origin, answered⟩

/-- Nothing but the identifier of the action can stop its insert. -/
structure CanCommit (db : Store) (action : GovernedAction) (ambient : Ambient) : Prop where
  case_ : action.caseId ∈ db.caseIds
  review : action.reviewId ∈ db.reviewIds
  unused : ∀ a ∈ db.actions.rows, a.tenantKey ≠ action.tenantKey
  auditId : ∀ e ∈ db.audit.rows, e.id ≠ ambient.uuid
  messageId : ∀ m ∈ db.outbox.rows, m.id ≠ ambient.uuid'

theorem insertProposal_none_iff {db : Store} {action : GovernedAction} {ambient : Ambient}
    (delivers : Delivers db.actions.rows db.outbox.rows) (can : CanCommit db action ambient) :
    insertProposal db action (proposedEvent action) (startMessage action) ambient = none ↔
      ∃ a ∈ db.actions.rows, a.id = action.id := by
  constructor
  · intro refused
    by_contra unused
    have fresh : ∀ a ∈ db.actions.rows, a.id ≠ action.id :=
      fun a member same => unused ⟨a, member, same⟩
    -- a message about the identifier would belong to an action with it
    have noMessage : ∀ m ∈ db.outbox.rows, m.aggregateEvent ≠
        ("governed_action", action.id, approvalWorkflowStart) := by
      intro m member same
      obtain ⟨a, aMember, about⟩ := delivers.hasAction m member
      exact fresh a aMember (about.trans (congrArg (·.2.1) same))
    obtain ⟨actions, inserted⟩ := Option.isSome_iff_exists.mp
      (db.actions.insert?_isSome (r := recordFromAction action) fresh can.unused)
    obtain ⟨audit, audited⟩ := Option.isSome_iff_exists.mp
      (db.audit.insert?_isSome
        (r := SqlAlchemyActionRepository.auditRecord (proposedEvent action) ambient.uuid ambient.now)
        can.auditId can.auditId)
    obtain ⟨outbox, queued⟩ := Option.isSome_iff_exists.mp
      (db.outbox.insert?_isSome
        (r := SqlAlchemyActionRepository.outboxRecord (startMessage action) ambient.uuid' ambient.now)
        can.messageId noMessage)
    simp [insertProposal, can.case_, can.review, proposedEvent, inserted, queued] at refused
    simp [proposedEvent] at audited
    simp [audited] at refused
  · rintro ⟨a, member, same⟩
    cases committed : insertProposal db action (proposedEvent action) (startMessage action) ambient with
    | none => rfl
    | some db' =>
      obtain ⟨_, _, _, _, _, fresh, _⟩ := insertProposal_some committed
      exact absurd same (fresh a member)

/-- What holds of proposals over the SQL repository, in any interleaving. -/
structure SqlProposalsSafe (platform : Platform σ ε ω φ) (w : World σ ω) : Prop where
  distinct : ∀ a ∈ w.store.actions.rows, ∀ b ∈ w.store.actions.rows,
    a.tenantKey ≠ b.tenantKey → a.id ≠ b.id
  retrievable : ∀ c ∈ w.calls, ∀ r a, c.request = .propose r →
    c.call = .returned (.ok (.action a)) → ∀ w', Steps (step platform) w w' →
    ∃ b, SqlAlchemyActionRepository.get w'.store a.id = .ok b ∧ b.tenantId = a.tenantId ∧
      b.caseId = a.caseId ∧ b.arguments = a.arguments
  /-- An insert that nothing else stops is refused just when an earlier request that created
      an action shares the identifier. -/
  blocked : ∀ c ∈ w.calls, ∀ r action ambient, c = ⟨.propose r, .insertProposal action⟩ →
    CanCommit w.store action ambient →
    (insertProposal w.store action (proposedEvent action) (startMessage action) ambient = none ↔
      ∃ a ∈ w.store.actions.rows, ∃ r', .propose r' ∈ w.requests ∧ BuiltFrom a r' ∧ SharesId r r')

/-- The names that the proposals of a run hand to `uuid5`. -/
def idNames (w : World σ ω) : Set String :=
  { name | ∃ r : ProposeRequest, .propose r ∈ w.requests ∧ name = r.idName }

theorem proposed_of_reachable (reachable : Reachable platform w) : w.Proposed := by
  have both : w.Governed ∧ w.Proposed := by
    refine reachable.invariant (I := fun w => w.Governed ∧ w.Proposed) ⟨?_, ?_⟩
    · intro caseIds reviewIds supplier workflow
      refine ⟨Governance.Governed.nil, ?_⟩
      constructor <;> simp [initial, Store.empty]
    · rintro w w' label ⟨governed, proposed⟩ moved
      exact ⟨governed_step governed moved, proposed_step governed proposed moved⟩
  exact both.2

theorem sqlProposalsSafe (reachable : Reachable platform w)
    (injective : Set.InjOn (uuid5 NAMESPACE_URL) w.idNames) : SqlProposalsSafe platform w := by
  have governed : w.Governed := reachable.invariant governed_inductive
  have proposed := proposed_of_reachable reachable
  have delivering : w.Delivering := reachable.invariant delivering_inductive
  refine ⟨?_, ?_, ?_⟩
  · intro a aMember b bMember differ same
    exact differ (congrArg GovernedAction.tenantKey (Table.eq_of_pk aMember bMember same))
  · intro c member r a isPropose returned w' steps
    obtain ⟨b, bMember, identity⟩ := proposed.answered c member r a isPropose returned
    obtain ⟨b', bMember', identity', _⟩ := rowsAdvance_steps governed steps b bMember
    have same := identity'.trans identity
    have found : w'.store.actions.find? a.id = some b' :=
      Table.find?_eq_some.mpr ⟨bMember', congrArg ActionIdentity.id same⟩
    exact ⟨b', by rw [SqlAlchemyActionRepository.get, found], congrArg ActionIdentity.tenantId same,
      congrArg ActionIdentity.caseId same, congrArg ActionIdentity.arguments same⟩
  · intro c member r action ambient isInsert can
    subst isInsert
    cases governed.callsOk _ member with
    | insertProposal now prepared =>
      have built := BuiltFrom.of_prepare prepared
      rw [insertProposal_none_iff delivering.delivers can]
      constructor
      · rintro ⟨a, aMember, sameId⟩
        -- rows come from proposals, so one identifier means one hashed name
        obtain ⟨r', requested, built'⟩ := proposed.origin a aMember
        refine ⟨a, aMember, r', requested, built', ?_⟩
        exact sharesId_of_same_id built built' injective
          ⟨r, List.mem_map.mpr ⟨_, member, rfl⟩, rfl⟩ ⟨r', requested, rfl⟩ sameId (can.unused a aMember)
      · rintro ⟨a, aMember, r', _, built', shares⟩
        exact ⟨a, aMember, shares.same_id built built'⟩

end SupplierAssurance.World

namespace SupplierAssurance.Governance.ProposalRun

open Python Lib

/-! ## Proposals are safe just when no two of them share an identifier -/

/-- Over the in-memory repository a sequence of calls is safe just when none of them clashes.
    Over the SQL repository the first two properties hold in every interleaving, and a clash
    blocks the later proposal. -/
theorem proposals_safe_iff (calls : List ProposeCall)
    (injective : Set.InjOn (uuid5 NAMESPACE_URL) (idNames calls)) :
    ((∀ done, done <+: calls → Safe (proposeAll done)) ↔
      ∀ before call, before ++ [call] <+: calls → ¬ Clashes (proposeAll before) call) ∧
    ∀ (σ ε ω φ : Type) (platform : Platform σ ε ω φ) (w : World σ ω),
      World.Reachable platform w → Set.InjOn (uuid5 NAMESPACE_URL) w.idNames →
      World.SqlProposalsSafe platform w := by
  refine ⟨⟨?_, ?_⟩, ?_⟩
  · intro safe before call started clashes
    exact not_safe_of_clashes clashes (safe _ started)
  · intro noClash done started
    exact (faithful_proposeAll injective started noClash).safe
  · intro σ ε ω φ platform w reachable names
    exact World.sqlProposalsSafe reachable names

def sampleCall (request : ProposeRequest) : ProposeCall := ⟨request, 0, .ok "local", none⟩

/-- Two tenants with the same idempotency key, each for its own case. -/
theorem proposals_safe_iff_two_tenants :
    Safe (proposeAll [sampleCall Sample.proposalA, sampleCall Sample.proposalB]) := by
  have differ : uuid5 NAMESPACE_URL Sample.proposalA.idName ≠
      uuid5 NAMESPACE_URL Sample.proposalB.idName := by
    decide +kernel
  have injective : Set.InjOn (uuid5 NAMESPACE_URL)
      (idNames [sampleCall Sample.proposalA, sampleCall Sample.proposalB]) := by
    rintro name ⟨call, member, rfl⟩ name' ⟨call', member', rfl⟩ same
    simp only [List.mem_cons, List.not_mem_nil, or_false] at member member'
    rcases member with rfl | rfl <;> rcases member' with rfl | rfl
    · rfl
    · exact absurd same differ
    · exact absurd same.symm differ
    · rfl
  refine (proposals_safe_iff _ injective).1.mpr ?_ _ (List.prefix_refl _)
  intro before call started clashes
  obtain ⟨action, _, _, e, created, shares⟩ := clashes
  obtain ⟨earlier, member, request⟩ := (logged_proposeAll before).called e created
  match before, started, member with
  | [first], started, member =>
    obtain ⟨rfl, rest⟩ := List.cons_prefix_cons.mp started
    obtain ⟨rfl, _⟩ := List.cons_prefix_cons.mp rest
    rw [List.mem_singleton.mp member] at request
    have tenant := shares.principalTenant
    rw [← request] at tenant
    exact absurd tenant (by decide)
  | first :: second :: third, started, member =>
    have tooLong := started.length_le
    simp at tooLong

/-- An administrator of tenant-a proposes for a case of tenant-b. -/
def adminCall : ProposeCall :=
  sampleCall ⟨Sample.caseB, Sample.reviewB, ⟨⟨0xc⟩⟩, Sample.admin⟩

theorem proposeAll_first {call : ProposeCall} {action : GovernedAction}
    (built : call.action = .ok action) (audited : call.audit = none) :
    proposeAll [call] = ⟨InMemoryActionRepository.empty.storeProposal action,
      [(call.request, action)], [action]⟩ := by
  simp [proposeAll, propose, creates, proposeInMemory, InMemoryActionRepository.createProposal,
    built, audited, empty, InMemoryActionRepository.empty]

/-- That a call gets past its checks can be evaluated without its identifier. -/
theorem exists_action {call : ProposeCall} (passes : call.action.isOk = true) :
    ∃ action, call.action = .ok action := by
  cases built : call.action with
  | error e =>
    rw [built] at passes
    cases passes
  | ok action => exact ⟨action, rfl⟩

/-- Then an analyst of tenant-a proposes for a case of tenant-a with the same key. -/
theorem not_safe_after_admin :
    Set.InjOn (uuid5 NAMESPACE_URL) (idNames [adminCall, sampleCall Sample.proposalA]) ∧
      ¬ Safe (proposeAll [adminCall, sampleCall Sample.proposalA]) := by
  have shares : SharesId Sample.proposalA adminCall.request := ⟨rfl, rfl, by decide⟩
  constructor
  · rintro name ⟨call, member, rfl⟩ name' ⟨call', member', rfl⟩ _
    simp only [List.mem_cons, List.not_mem_nil, or_false] at member member'
    rcases member with rfl | rfl <;> rcases member' with rfl | rfl
    · rfl
    · exact shares.idName
    · exact shares.idName.symm
    · rfl
  · obtain ⟨a, built⟩ := @exists_action adminCall rfl
    obtain ⟨b, built'⟩ := @exists_action (sampleCall Sample.proposalA) rfl
    have clashes : Clashes (proposeAll [adminCall]) (sampleCall Sample.proposalA) := by
      rw [proposeAll_first built rfl]
      refine ⟨b, built', ?_, (adminCall.request, a), List.mem_singleton.mpr rfl, shares⟩
      have differ : b.tenantKey ≠ a.tenantKey := by
        rw [(action_builtFrom built).tenantKey, (action_builtFrom built').tenantKey]
        decide
      simp [InMemoryActionRepository.storeProposal, InMemoryActionRepository.empty, differ]
    exact not_safe_of_clashes clashes

end SupplierAssurance.Governance.ProposalRun
