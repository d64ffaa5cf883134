import SupplierAssurance.Governance.AuditTrail

/-! # Creating proposals is all-or-nothing

Any number of `propose` calls over the SQL repository, from any store: the constraints of
the tables are part of their type.  A transaction of a call may abort at any point.

`Creation` is the commit of one call.  `Created` is the invariant of the runs: what the
calls added to the three tables is the list of their commits, at most one for each call,
and a call that returned normally answers with the row stored under its key.
-/

namespace SupplierAssurance.Governance

open Python Lib SqlAlchemyActionRepository

/-- The action that a proposal in flight wants to create. -/
def Call.proposing : Call → Option GovernedAction
  | .lookupProposal action | .insertProposal action | .reloadProposal action => some action
  | _ => none

/-- The insert transaction that call `index` committed. -/
structure Creation where
  index : Nat
  action : GovernedAction
  ambient : Ambient

namespace Creation

def row (c : Creation) : GovernedAction :=
  recordFromAction c.action

def event (c : Creation) : AuditEvent :=
  auditRecord (proposedEvent c.action) c.ambient.uuid c.ambient.now

def message (c : Creation) : OutboxMessage :=
  outboxRecord (startMessage c.action) c.ambient.uuid' c.ambient.now

end Creation

/-- The row under the key of the request is for its case and review, and `a` is a copy of it. -/
structure Answers (rows : List GovernedAction) (r : ProposeRequest) (a row : GovernedAction) : Prop where
  member : row ∈ rows
  tenantId : row.tenantId = r.supplierCase.tenantId
  key : row.idempotencyKey = r.request.idempotencyKey
  caseId : row.caseId = r.supplierCase.id
  reviewId : row.reviewId = r.review.reviewId
  id : a.id = row.id
  proposer : a.proposerId = row.proposerId
  arguments : a.arguments = row.arguments

/-- Where a `propose` call can stand. -/
inductive Proposing (rows : List GovernedAction) (r : ProposeRequest) : Call → Prop
  | inFlight {call : Call} {a : GovernedAction} (now : Datetime) :
      call.proposing = some a → prepareAction r now = .ok a → Proposing rows r call
  | raised (e : GovernanceError) : Proposing rows r (.returned (.error e))
  | answered {a row : GovernedAction} : Answers rows r a row →
      Proposing rows r (.returned (.ok (.action a)))

structure Created (db db' : Store) (calls : List InFlight) (created : List Creation) : Prop where
  actions : db'.actions.rows = db.actions.rows ++ created.map Creation.row
  audit : db'.audit.rows = db.audit.rows ++ created.map Creation.event
  outbox : db'.outbox.rows = db.outbox.rows ++ created.map Creation.message
  once : (created.map Creation.index).Nodup
  returned : ∀ c ∈ created, ∃ r, calls[c.index]? = some ⟨.propose r, .returned (.ok (.action c.action))⟩
  proposing : ∀ c ∈ calls, ∃ r, c.request = .propose r ∧ Proposing db'.actions.rows r c.call

section Steps

variable {rows rows' : List GovernedAction} {db db' db'' : Store} {calls : List InFlight}
  {created : List Creation} {r : ProposeRequest} {call call' : Call} {a : GovernedAction} {index : Nat}

theorem Proposing.mono (proposing : Proposing rows r call) (subset : rows ⊆ rows') :
    Proposing rows' r call := by
  cases proposing with
  | inFlight now isCall prepared => exact .inFlight now isCall prepared
  | raised e => exact .raised e
  | answered answers => exact .answered { answers with member := subset answers.member }

theorem Proposing.enter (rows : List GovernedAction) (r : ProposeRequest) (now : Datetime) :
    Proposing rows r (.enter now (.propose r)) := by
  simp only [Call.enter]
  split
  next e _ => exact .raised e
  next a prepared => exact .inFlight now rfl prepared

/-- What a prepared action says of its request. -/
theorem prepareAction_columns {now : Datetime} (prepared : prepareAction r now = .ok a) :
    a.tenantId = r.supplierCase.tenantId ∧ a.idempotencyKey = r.request.idempotencyKey ∧
      a.caseId = r.supplierCase.id ∧ a.reviewId = r.review.reviewId := by
  obtain ⟨_, _, _, arguments, rfl⟩ := prepareAction_ok prepared
  exact ⟨rfl, rfl, rfl, rfl⟩

/-- `settle_proposal` accepts the row it was given, and only for the same case and review. -/
theorem Proposing.settle {now : Datetime} {existing : GovernedAction}
    (prepared : prepareAction r now = .ok a)
    (found : getByIdempotency db a.tenantId a.idempotencyKey = some existing) :
    Proposing db.actions.rows r (.returned ((settleProposal a existing).map .action)) := by
  obtain ⟨member, key⟩ := Table.findAlt?_eq_some.mp found
  obtain ⟨tenantId, idempotencyKey, caseId, reviewId⟩ := prepareAction_columns prepared
  have sameTenant : existing.tenantId = a.tenantId := congrArg Prod.fst key
  have sameKey : existing.idempotencyKey = a.idempotencyKey := congrArg Prod.snd key
  unfold settleProposal
  split
  next => exact .raised _
  next same =>
    have sameCase : existing.caseId = a.caseId := not_not.mp fun differ => same (.inl differ)
    have sameReview : existing.reviewId = a.reviewId := not_not.mp fun differ => same (.inr differ)
    exact .answered ⟨member, sameTenant.trans tenantId, sameKey.trans idempotencyKey,
      sameCase.trans caseId, sameReview.trans reviewId, rfl, rfl, rfl⟩

/-- Call `index` of the run moves on without a commit. -/
theorem Created.setCall (ok : Created db db' calls created)
    (at_ : calls[index]? = some ⟨.propose r, call⟩) (unfinished : ∀ result, call ≠ .returned result)
    (next : Proposing db'.actions.rows r call') :
    Created db db' (calls.set index ⟨.propose r, call'⟩) created := by
  refine { ok with returned := ?_, proposing := ?_ }
  · intro c member
    obtain ⟨r', returned⟩ := ok.returned c member
    by_cases here : index = c.index
    · subst here
      obtain ⟨_, sameCall⟩ := InFlight.mk.inj (Option.some.inj (at_.symm.trans returned))
      exact absurd sameCall (unfinished _)
    · exact ⟨r', by rw [List.getElem?_set_ne here]; exact returned⟩
  · intro c member
    rcases List.mem_or_eq_of_mem_set member with old | rfl
    · exact ok.proposing c old
    · exact ⟨r, rfl, next⟩

/-- The insert of call `index` commits. -/
theorem Created.commit {ambient : Ambient} (ok : Created db db' calls created)
    (at_ : calls[index]? = some ⟨.propose r, .insertProposal a⟩) {now : Datetime}
    (prepared : prepareAction r now = .ok a)
    (committed : insertProposal db' a (proposedEvent a) (startMessage a) ambient = some db'') :
    Created db db'' (calls.set index ⟨.propose r, .returned (.ok (.action a))⟩)
      (created ++ [⟨index, a, ambient⟩]) := by
  obtain ⟨_, _, actions, audit, outbox, _⟩ := insertProposal_some committed
  have grown : db'.actions.rows ⊆ db''.actions.rows := by
    rw [actions]
    exact List.subset_append_left _ _
  have bound := (List.getElem?_eq_some_iff.mp at_).1
  -- the call had not returned, so it committed nothing before
  have fresh : ∀ c ∈ created, c.index ≠ index := by
    intro c member same
    obtain ⟨r', returned⟩ := ok.returned c member
    rw [same, at_] at returned
    cases returned
  refine ⟨?_, ?_, ?_, ?_, ?_, ?_⟩
  · simp [actions, ok.actions, Creation.row]
  · simp [audit, ok.audit, Creation.event]
  · simp [outbox, ok.outbox, Creation.message]
  · rw [List.map_append, List.nodup_append]
    refine ⟨ok.once, by simp, ?_⟩
    intro i member j single
    obtain ⟨c, cMember, rfl⟩ := List.mem_map.mp member
    rw [List.mem_singleton.mp single]
    exact fresh c cMember
  · intro c member
    rcases List.mem_append.mp member with old | new
    · obtain ⟨r', returned⟩ := ok.returned c old
      exact ⟨r', by rw [List.getElem?_set_ne (fresh c old).symm]; exact returned⟩
    · rw [List.mem_singleton.mp new]
      exact ⟨r, List.getElem?_set_self bound⟩
  · intro c member
    rcases List.mem_or_eq_of_mem_set member with old | rfl
    · obtain ⟨r', isPropose, proposing⟩ := ok.proposing c old
      exact ⟨r', isPropose, proposing.mono grown⟩
    · obtain ⟨tenantId, key, caseId, reviewId⟩ := prepareAction_columns prepared
      have stored : recordFromAction a ∈ db''.actions.rows := by
        rw [actions]
        simp
      exact ⟨r, rfl, .answered ⟨stored, tenantId, key, caseId, reviewId, rfl, rfl, rfl⟩⟩

theorem Proposing.prepared (proposing : Proposing rows r call) (isCall : call.proposing = some a) :
    ∃ now, prepareAction r now = .ok a := by
  cases proposing with
  | inFlight now isCall' prepared =>
    cases isCall.symm.trans isCall'
    exact ⟨now, prepared⟩
  | raised | answered => cases isCall

/-- One step of a call of the run. -/
theorem Created.advance {σ ε : Type} {system : SupplierSystem σ ε} {supplier : σ} {ambient : Ambient}
    {input : ε} {request : Request} {p : Progress σ} (ok : Created db db' calls created)
    (at_ : calls[index]? = some ⟨request, call⟩) (unfinished : ∀ result, call ≠ .returned result)
    (advances : Advances system db' supplier ambient input call p) :
    (∃ created', Created db p.store (calls.set index ⟨request, p.call⟩) created') ∧
      db'.actions.rows ⊆ p.store.actions.rows := by
  obtain ⟨r, rfl, proposing⟩ := ok.proposing _ (List.mem_of_getElem? at_)
  have kept : db'.actions.rows ⊆ db'.actions.rows := List.Subset.refl _
  cases advances with
  | reads read =>
    refine ⟨⟨created, ok.setCall at_ unfinished ?_⟩, kept⟩
    cases read with
    | toInsert | toReload =>
      obtain ⟨now, prepared⟩ := proposing.prepared rfl
      exact .inFlight now rfl prepared
    | toSave | toApply | toReconsider =>
      cases proposing with
      | inFlight _ isCall => cases isCall
    | settles settles =>
      cases settles with
      | failed e => exact .raised e
      | looked found | reloaded found =>
        obtain ⟨now, prepared⟩ := proposing.prepared rfl
        exact .settle prepared found
      | replayed | overtaken =>
        cases proposing with
        | inFlight _ isCall => cases isCall
      | again => exact proposing
  | inserts committed =>
    obtain ⟨now, prepared⟩ := proposing.prepared rfl
    refine ⟨⟨_, ok.commit at_ prepared committed⟩, ?_⟩
    obtain ⟨_, _, actions, _⟩ := insertProposal_some committed
    rw [actions]
    exact List.subset_append_left _ _
  | decides | applies | applyRaises | executes =>
    cases proposing with
    | inFlight _ isCall => cases isCall

end Steps

/-! ## A key that is bound to another case or review -/

/-- The key of `a` belongs to a row of another case or review. -/
def BoundElsewhere (rows : List GovernedAction) (a : GovernedAction) : Prop :=
  ∃ row ∈ rows, row.tenantKey = a.tenantKey ∧ (row.caseId ≠ a.caseId ∨ row.reviewId ≠ a.reviewId)

def keyConflict : GovernanceError :=
  .idempotencyConflict "The idempotency key is already associated with another proposal"

/-- A proposal in flight whose key is bound elsewhere raises, at its lookup or at the second
    one after its insert was refused. -/
theorem advance_boundElsewhere {σ ε : Type} (system : SupplierSystem σ ε) {db : Store} (supplier : σ)
    (ambient : Ambient) (input : ε) {call : Call} {a : GovernedAction}
    (bound : BoundElsewhere db.actions.rows a) (isCall : call.proposing = some a) :
    (call.advance system db supplier ambient input).call = .returned (.error keyConflict) ∨
      call = .insertProposal a ∧
        call.advance system db supplier ambient input = ⟨db, supplier, .reloadProposal a, []⟩ := by
  obtain ⟨row, member, key, differ⟩ := bound
  have found : getByIdempotency db a.tenantId a.idempotencyKey = some row :=
    Table.findAlt?_eq_some.mpr ⟨member, key⟩
  have settled : settleProposal a row = .error keyConflict := if_pos differ
  cases call with
  | lookupProposal | reloadProposal =>
    cases isCall
    left
    simp [Call.advance, found, settled, Except.map]
  | insertProposal =>
    cases isCall
    right
    cases committed : insertProposal db a (proposedEvent a) (startMessage a) ambient with
    | none => simp [Call.advance, committed]
    | some db' =>
      -- the unique constraint on the key refuses the insertion
      obtain ⟨_, _, _, _, _, _, unused, _⟩ := insertProposal_some committed
      exact absurd key (unused row member)
  | loadToDecide | saveDecision | loadToExecute | applyDecision | saveExecution | reloadExecution |
    returned => cases isCall

end SupplierAssurance.Governance

/-! ## Runs of proposals -/

namespace SupplierAssurance.World

open Python Lib Governance

variable {σ ε ω φ : Type} {platform : Platform σ ε ω φ} {w w' : World σ ω}

/-- Any store, and no call yet. -/
def starting (db : Store) (supplier : σ) (workflow : ω) : World σ ω :=
  { initial db.caseIds db.reviewIds supplier workflow with store := db }

/-- The steps of runs in which every call is a proposal. -/
def ProposeOnly (_ : World σ ω) : FaultLabel ε φ → Prop
  | .step (.submit (.propose _) _) | .step (.advance _ _ _) | .abort _ _ => True
  | _ => False

/-- Another step of a call that has returned changes nothing. -/
theorem progressed_returned {index : Nat} {request : Request}
    {result : Except GovernanceError Response} {ambient : Ambient} {input : ε}
    (at_ : w.calls[index]? = some ⟨request, .returned result⟩) :
    w.progressed index request
      ((Call.returned result).advance platform.supplier w.store w.supplier ambient input) = w := by
  obtain ⟨bound, same⟩ := List.getElem?_eq_some_iff.mp at_
  have set : w.calls.set index ⟨request, .returned result⟩ = w.calls := by
    rw [← same]
    exact List.set_getElem_self bound
  simp [progressed, Call.advance, set]

/-- The step lemma of the runs of proposals. -/
theorem created_faultStep {db : Store} {label : FaultLabel ε φ}
    (ok : ∃ created, Created db w.store w.calls created) (good : w.ProposeOnly label)
    (moved : faultStep platform w label = some w') :
    (∃ created, Created db w'.store w'.calls created) ∧
      w.store.actions.rows ⊆ w'.store.actions.rows := by
  obtain ⟨created, ok⟩ := ok
  have kept : w.store.actions.rows ⊆ w.store.actions.rows := List.Subset.refl _
  cases label with
  | step label =>
    simp only [faultStep] at moved
    cases label with
    | submit request now =>
      cases request with
      | propose r =>
        cases moved
        refine ⟨⟨created, { ok with returned := ?_, proposing := ?_ }⟩, kept⟩
        · intro c member
          obtain ⟨r', returned⟩ := ok.returned c member
          exact ⟨r', List.getElem?_append_left (List.getElem?_eq_some_iff.mp returned).1 ▸ returned⟩
        · intro c member
          rcases List.mem_append.mp member with old | new
          · exact ok.proposing c old
          · rw [List.mem_singleton.mp new]
            exact ⟨r, rfl, .enter _ r now⟩
      | decide | execute => cases good
    | advance index ambient input =>
      simp only [step] at moved
      split at moved
      · cases moved
      next c at_ =>
        obtain ⟨request, call⟩ := c
        cases moved
        by_cases finished : ∃ result, call = .returned result
        · obtain ⟨result, rfl⟩ := finished
          rw [progressed_returned at_]
          exact ⟨⟨created, ok⟩, kept⟩
        · have unfinished : ∀ result, call ≠ .returned result :=
            fun result isReturned => finished ⟨result, isReturned⟩
          exact ok.advance at_ unfinished (Call.advance_cases ..)
    | claim | load | start | acknowledge | crash | storeCase | storeReview => cases good
  | abort index error =>
    simp only [faultStep] at moved
    split at moved
    next => cases moved
    next => cases moved
    next request call unfinished at_ =>
      cases moved
      obtain ⟨r, rfl, _⟩ := ok.proposing _ (List.mem_of_getElem? at_)
      refine ⟨⟨created, ok.setCall at_ ?_ (.raised error)⟩, kept⟩
      rintro result rfl
      exact unfinished result rfl
  | audit => cases good

/-- A call of `a` that has not returned yet, or has raised the conflict. -/
def Conflicting (w : World σ ω) (index : Nat) (r : ProposeRequest) (a : GovernedAction) : Prop :=
  BoundElsewhere w.store.actions.rows a ∧ ∃ call, w.calls[index]? = some ⟨.propose r, call⟩ ∧
    (call.proposing = some a ∨ call = .returned (.error keyConflict))

/-- The steps of runs of proposals that do not abort call `index`. -/
def Undisturbed (index : Nat) (w : World σ ω) (label : FaultLabel ε φ) : Prop :=
  w.ProposeOnly label ∧ ∀ e, label ≠ .abort index e

theorem conflicting_advance {index : Nat} {r : ProposeRequest} {a : GovernedAction}
    (conflicting : w.Conflicting index r a) (ambient : Ambient) (input : ε)
    (grown : w.store.actions.rows ⊆ w'.store.actions.rows)
    (moved : step platform w (.advance index ambient input) = some w') : w'.Conflicting index r a := by
  obtain ⟨⟨row, member, key, differ⟩, call, at_, stage⟩ := conflicting
  refine ⟨⟨row, grown member, key, differ⟩, ?_⟩
  simp only [step, at_, Option.some.injEq] at moved
  subst moved
  refine ⟨_, List.getElem?_set_self (List.getElem?_eq_some_iff.mp at_).1, ?_⟩
  rcases stage with isCall | rfl
  · obtain raised | ⟨_, refused⟩ := advance_boundElsewhere platform.supplier w.supplier ambient input
      ⟨row, member, key, differ⟩ isCall
    · exact .inr raised
    · exact .inl (by rw [refused]; rfl)
  · exact .inr rfl

theorem conflicting_faultStep {db : Store} {label : FaultLabel ε φ} {index : Nat} {r : ProposeRequest}
    {a : GovernedAction} (ok : ∃ created, Created db w.store w.calls created)
    (conflicting : w.Conflicting index r a) (good : Undisturbed index w label)
    (moved : faultStep platform w label = some w') : w'.Conflicting index r a := by
  have grown := (created_faultStep ok good.1 moved).2
  have others : w'.calls[index]? = w.calls[index]? → w'.Conflicting index r a := by
    intro same
    obtain ⟨⟨row, member, key, differ⟩, call, at_, stage⟩ := conflicting
    exact ⟨⟨row, grown member, key, differ⟩, call, same.trans at_, stage⟩
  have bound : index < w.calls.length := by
    obtain ⟨_, call, at_, _⟩ := conflicting
    exact (List.getElem?_eq_some_iff.mp at_).1
  cases label with
  | step label =>
    cases label with
    | submit request now =>
      cases moved
      exact others (List.getElem?_append_left bound)
    | advance moving ambient input =>
      by_cases here : moving = index
      · subst here
        exact conflicting_advance conflicting ambient input grown moved
      · simp only [faultStep, step] at moved
        split at moved
        · cases moved
        · cases moved
          exact others (List.getElem?_set_ne here)
    | claim | load | start | acknowledge | crash | storeCase | storeReview => cases good.1
  | abort moving error =>
    have elsewhere : moving ≠ index := fun same => good.2 error (by rw [same])
    simp only [faultStep] at moved
    split at moved
    next => cases moved
    next => cases moved
    next =>
      cases moved
      exact others (List.getElem?_set_ne elsewhere)
  | audit => cases good.1

/-- Two steps of its own are enough for the call to raise. -/
theorem conflicting_raises {index : Nat} {r : ProposeRequest} {call : Call} {a : GovernedAction}
    (at_ : w.calls[index]? = some ⟨.propose r, call⟩) (isCall : call.proposing = some a)
    (bound : BoundElsewhere w.store.actions.rows a) (first second : Ambient) (input input' : ε) :
    ∃ w', run (step platform) w [.advance index first input, .advance index second input'] = some w' ∧
      w'.calls[index]? = some ⟨.propose r, .returned (.error keyConflict)⟩ := by
  obtain ⟨w₁, moved₁, store₁, at₁⟩ := step_advance platform at_ first input
  obtain ⟨w₂, moved₂, _, at₂⟩ := step_advance platform at₁ second input'
  refine ⟨w₂, by simp [run, moved₁, moved₂], ?_⟩
  rw [at₂]
  obtain raised | ⟨_, refused⟩ :=
    advance_boundElsewhere platform.supplier w.supplier first input bound isCall
  · rw [raised]
    rfl
  · -- the insert was refused, and the second lookup finds the row
    rw [refused] at store₁ ⊢
    have bound₁ : BoundElsewhere w₁.store.actions.rows a := by
      rw [store₁]
      exact bound
    have reloading : (Call.reloadProposal a).proposing = some a := rfl
    obtain raised | ⟨isInsert, _⟩ :=
      advance_boundElsewhere platform.supplier w₁.supplier second input' bound₁ reloading
    · rw [raised]
    · cases isInsert

structure ProposalsAtomic (platform : Platform σ ε ω φ) (db : Store) (w : World σ ω) : Prop where
  oneAction : ∀ a ∈ w.store.actions.rows, ∀ b ∈ w.store.actions.rows,
    a.tenantId = b.tenantId → a.idempotencyKey = b.idempotencyKey → a = b
  together : ∃ created : List Creation,
    w.store.actions.rows = db.actions.rows ++ created.map Creation.row ∧
    w.store.audit.rows = db.audit.rows ++ created.map Creation.event ∧
    w.store.outbox.rows = db.outbox.rows ++ created.map Creation.message ∧
    (created.map Creation.index).Nodup ∧
    (∀ c ∈ created, ∃ r, w.calls[c.index]? =
      some ⟨.propose r, .returned (.ok (.action c.action))⟩) ∧
    ∀ index request e, w.calls[index]? = some ⟨request, .returned (.error e)⟩ →
      index ∉ created.map Creation.index
  stored : ∀ c ∈ w.calls, ∀ r response, c.request = .propose r →
    c.call = .returned (.ok response) →
    ∃ a row, response = .action a ∧ Answers w.store.actions.rows r a row
  same : ∀ c ∈ w.calls, ∀ c' ∈ w.calls, ∀ r r' a a', c.request = .propose r → c'.request = .propose r' →
    r.supplierCase.tenantId = r'.supplierCase.tenantId →
    r.request.idempotencyKey = r'.request.idempotencyKey →
    r.supplierCase.id = r'.supplierCase.id → r.review.reviewId = r'.review.reviewId →
    c.call = .returned (.ok (.action a)) → c'.call = .returned (.ok (.action a')) →
    a.id = a'.id ∧ a.proposerId = a'.proposerId ∧ a.arguments = a'.arguments
  conflicts : ∀ index r call a, w.calls[index]? = some ⟨.propose r, call⟩ →
    call.proposing = some a → BoundElsewhere w.store.actions.rows a →
    (∀ w', StepsWhen (faultStep platform) (Undisturbed index) w w' →
      ∀ result, w'.calls[index]? = some ⟨.propose r, .returned result⟩ → result = .error keyConflict) ∧
    ∀ first second input input', ∃ w',
      run (step platform) w [.advance index first input, .advance index second input'] = some w' ∧
      w'.calls[index]? = some ⟨.propose r, .returned (.error keyConflict)⟩

theorem Created.atomic {db : Store} {created : List Creation}
    (ok : Created db w.store w.calls created) : ProposalsAtomic platform db w := by
  have stored : ∀ c ∈ w.calls, ∀ r response, c.request = .propose r →
      c.call = .returned (.ok response) →
      ∃ a row, response = .action a ∧ Answers w.store.actions.rows r a row := by
    rintro ⟨request, call⟩ member r response rfl rfl
    obtain ⟨r', isPropose, proposing⟩ := ok.proposing _ member
    cases isPropose
    cases proposing with
    | inFlight _ isCall => cases isCall
    | answered answers => exact ⟨_, _, rfl, answers⟩
  refine ⟨?_, ⟨created, ok.actions, ok.audit, ok.outbox, ok.once, ok.returned, ?_⟩, stored, ?_, ?_⟩
  · intro a aMember b bMember tenantId key
    exact Table.eq_of_alt aMember bMember (Prod.ext tenantId key)
  · intro index request e at_ committed
    obtain ⟨c, member, rfl⟩ := List.mem_map.mp committed
    obtain ⟨r, returned⟩ := ok.returned c member
    cases at_.symm.trans returned
  · intro c member c' member' r r' a a' asks asks' tenantId key caseId reviewId returned returned'
    obtain ⟨_, row, isAction, answers⟩ := stored c member r _ asks returned
    obtain ⟨_, row', isAction', answers'⟩ := stored c' member' r' _ asks' returned'
    cases isAction
    cases isAction'
    have sameRow : row = row' := Table.eq_of_alt answers.member answers'.member
      (Prod.ext ((answers.tenantId.trans tenantId).trans answers'.tenantId.symm)
        ((answers.key.trans key).trans answers'.key.symm))
    subst sameRow
    exact ⟨answers.id.trans answers'.id.symm, answers.proposer.trans answers'.proposer.symm,
      answers.arguments.trans answers'.arguments.symm⟩
  · intro index r call a at_ isCall bound
    refine ⟨?_, conflicting_raises at_ isCall bound⟩
    intro w' steps result at'
    have both : (∃ created, Created db w'.store w'.calls created) ∧ w'.Conflicting index r a :=
      steps.invariant (I := fun w => (∃ created, Created db w.store w.calls created) ∧
          w.Conflicting index r a)
        ⟨⟨created, ok⟩, bound, call, at_, .inl isCall⟩ fun holds good moved =>
          ⟨(created_faultStep holds.1 good.1 moved).1,
            conflicting_faultStep holds.1 holds.2 good moved⟩
    obtain ⟨_, _, call', at'', stage⟩ := both
    cases at'.symm.trans at''
    rcases stage with inFlight | raised
    · cases inFlight
    · cases raised
      rfl

/-- In every state of every run of proposals, from any store. -/
theorem proposalsAtomic_of_proposeOnly {db : Store} {supplier : σ} {workflow : ω}
    (steps : StepsWhen (faultStep platform) ProposeOnly (starting db supplier workflow) w) :
    ProposalsAtomic platform db w := by
  have ok : ∃ created, Created db w.store w.calls created :=
    steps.invariant ⟨[], by constructor <;> simp [starting, initial]⟩
      fun holds good moved => (created_faultStep holds good moved).1
  obtain ⟨created, ok⟩ := ok
  exact Created.atomic ok

end SupplierAssurance.World

/-! ## Racing proposals -/

namespace SupplierAssurance.Sample

open Python Governance World

/-- Two proposals for one review race with one key, a third aborts at its insert, and a
    fourth uses the key for another review. -/
def racingProposals : List (FaultLabel Datetime Unit) :=
  let other : ProposeRequest := ⟨caseA, reviewOf caseA ⟨0x2a⟩ .reject, ⟨⟨0xc⟩⟩, analystA⟩
  [.step (.submit (.propose proposalA) 1), .step (.submit (.propose proposalA) 2),
    .step (.submit (.propose other) 3), .step (.submit (.propose other) 4),
    .step (.advance 0 (ambient 5 0) 0), .step (.advance 1 (ambient 6 1) 0),
    .step (.advance 2 (ambient 7 2) 0), .step (.advance 3 (ambient 8 3) 0), .abort 2 .integrityError,
    .step (.advance 1 (ambient 9 4) 0), .step (.advance 0 (ambient 10 5) 0),
    .step (.advance 3 (ambient 11 6) 0), .step (.advance 0 (ambient 12 7) 0),
    .step (.advance 3 (ambient 13 8) 0)]

/-- The creation time of the action that a call returned, or the exception it raised. -/
def outcome (c : InFlight) : Option (Except GovernanceError Datetime) :=
  match c.call with
  | .returned (.ok (.action a)) => some (.ok a.createdAt)
  | .returned (.error e) => some (.error e)
  | _ => none

def proposeOnlyTest {ε φ : Type} : FaultLabel ε φ → Bool
  | .step (.submit (.propose _) _) | .step (.advance _ _ _) | .abort _ _ => true
  | _ => false

end SupplierAssurance.Sample

namespace SupplierAssurance.World

open Python Lib Governance

theorem proposeOnly_of_test {σ ε ω φ : Type} {label : FaultLabel ε φ}
    (passed : Sample.proposeOnlyTest label = true) (w : World σ ω) : w.ProposeOnly label := by
  unfold Sample.proposeOnlyTest at passed
  split at passed <;> trivial

theorem proposalsAtomic_of_proposeOnly_racing :
    ∃ w, StepsWhen (faultStep Sample.platform) ProposeOnly
        (starting (.empty [⟨0xa⟩] [⟨0x1a⟩, ⟨0x2a⟩]) [] ()) w ∧
      w.calls.map Sample.outcome = [some (.ok 2), some (.ok 2), some (.error .integrityError),
        some (.error keyConflict)] ∧
      ProposalsAtomic Sample.platform (.empty [⟨0xa⟩] [⟨0x1a⟩, ⟨0x2a⟩]) w := by
  have replayed : (runWhen (faultStep Sample.platform) (fun _ => Sample.proposeOnlyTest)
      (starting (.empty [⟨0xa⟩] [⟨0x1a⟩, ⟨0x2a⟩]) [] ()) Sample.racingProposals).map
        (fun w => decide (w.calls.map Sample.outcome = [some (.ok 2), some (.ok 2),
          some (.error .integrityError), some (.error keyConflict)])) = some true := by
    decide +kernel
  obtain ⟨w, ran, passed⟩ := Option.map_eq_some_iff.mp replayed
  have steps : StepsWhen (faultStep Sample.platform) ProposeOnly _ w :=
    stepsWhen_of_runWhen (fun w label _ passed => proposeOnly_of_test passed w) ran
  exact ⟨w, steps, of_decide_eq_true passed, proposalsAtomic_of_proposeOnly steps⟩

end SupplierAssurance.World
