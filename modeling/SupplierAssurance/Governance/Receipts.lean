import SupplierAssurance.Governance.Lifecycle

/-! # Receipts of the in-memory supplier system

Actions are unique under tenant and idempotency key, but `InMemorySupplierSystem` keeps its
receipts under the idempotency key alone.  Two tenants that choose the same key share
one receipt: the second action is executed without a decision of its own.

`OwnKey` is the condition on a step that rules this out.  Without any condition the
receipt table still says which action each of its entries belongs to (`Recorded`).
-/

namespace SupplierAssurance.Governance

open Python Lib

abbrev Receipts := List (UUID × ExecutionReceipt)

/-- The action carries a receipt of its own, and the supplier system has recorded one decision
    for it. -/
def OwnReceipt (receipts : Receipts) (a : GovernedAction) : Prop :=
  (∃ receipt ∈ a.executionReceipt, receipt.actionId = a.id ∧
    receipt.appliedDecision = a.arguments.decision) ∧
  (receipts.filter fun entry => entry.2.actionId = a.id).length = 1

instance (receipts : Receipts) (a : GovernedAction) : Decidable (OwnReceipt receipts a) :=
  inferInstanceAs (Decidable (_ ∧ _))

/-- The receipt is one for the decision of this action. -/
structure ReceiptFor (receipt : ExecutionReceipt) (a : GovernedAction) : Prop where
  actionId : receipt.actionId = a.id
  decision : receipt.appliedDecision = a.arguments.decision

variable {rows rows' : List GovernedAction} {receipts receipts' : Receipts} {a : GovernedAction}
  {receipt : ExecutionReceipt} {now : Datetime}

/-! ## The table of the supplier system -/

/-- One entry for each key, and each is for a stored action with that key. -/
structure Recorded (rows : List GovernedAction) (receipts : Receipts) : Prop where
  keys : (receipts.map (·.1)).Nodup
  entries : ∀ entry ∈ receipts, ∃ a ∈ rows, a.idempotencyKey = entry.1 ∧ ReceiptFor entry.2 a

theorem ReceiptFor.of_identity {b : GovernedAction} (own : ReceiptFor receipt a)
    (identity : b.identity = a.identity) : ReceiptFor receipt b := by
  refine ⟨own.actionId.trans (congrArg ActionIdentity.id identity).symm, ?_⟩
  rw [own.decision]
  exact congrArg (fun i => i.arguments.decision) identity.symm

theorem Recorded.evolve (recorded : Recorded rows receipts) (evolve : RowsEvolve rows rows') :
    Recorded rows' receipts := by
  refine ⟨recorded.keys, ?_⟩
  intro entry member
  obtain ⟨a, aMember, key, own⟩ := recorded.entries entry member
  obtain ⟨a', aMember', evolves⟩ := evolve a aMember
  exact ⟨a', aMember', (congrArg ActionIdentity.idempotencyKey evolves.identity).trans key,
    own.of_identity evolves.identity⟩

theorem mem_of_lookup {key : UUID} (found : receipts.lookup key = some receipt) :
    (key, receipt) ∈ receipts := by
  obtain ⟨before, after, rfl, _⟩ := List.lookup_eq_some_iff.mp found
  simp

/-- What a call of the supplier system does: it finds an entry, or adds one for the action. -/
theorem setOnboardingDecision_spec {answer : Except String ExecutionReceipt}
    (called : inMemorySupplierSystem.setOnboardingDecision receipts now a.id a.idempotencyKey
      a.arguments = (receipts', answer)) :
    ∃ receipt, answer = .ok receipt ∧ (a.idempotencyKey, receipt) ∈ receipts' ∧
      ((receipts' = receipts ∧ receipts.lookup a.idempotencyKey = some receipt) ∨
        (receipts' = receipts ++ [(a.idempotencyKey, receipt)] ∧
          receipts.lookup a.idempotencyKey = none ∧ ReceiptFor receipt a)) := by
  simp only [inMemorySupplierSystem] at called
  split at called
  next existing found =>
    cases called
    exact ⟨existing, rfl, mem_of_lookup found, .inl ⟨rfl, found⟩⟩
  next absent =>
    cases called
    exact ⟨_, rfl, by simp, .inr ⟨rfl, absent, rfl, rfl⟩⟩

theorem Recorded.apply {answer : Except String ExecutionReceipt} {b : GovernedAction}
    (recorded : Recorded rows receipts) (member : b ∈ rows) (identity : b.identity = a.identity)
    (called : inMemorySupplierSystem.setOnboardingDecision receipts now a.id a.idempotencyKey
      a.arguments = (receipts', answer)) : Recorded rows receipts' := by
  obtain ⟨receipt, _, _, ⟨rfl, _⟩ | ⟨rfl, absent, own⟩⟩ := setOnboardingDecision_spec called
  · exact recorded
  · have fresh : a.idempotencyKey ∉ receipts.map (·.1) := by
      intro present
      obtain ⟨entry, entryMember, key⟩ := List.mem_map.mp present
      simpa [key] using List.lookup_eq_none_iff.mp absent entry entryMember
    constructor
    · rw [List.map_append, List.map_singleton]
      exact recorded.keys.append (List.nodup_singleton _) (by simpa using fresh)
    · intro entry entryMember
      rcases List.mem_append.mp entryMember with old | new
      · exact recorded.entries entry old
      · rw [List.mem_singleton.mp new]
        exact ⟨b, member, congrArg ActionIdentity.idempotencyKey identity, own.of_identity identity⟩

/-- The entries for a stored action are those under its key. -/
theorem Recorded.key_of_actionId (recorded : Recorded rows receipts)
    (unique : ∀ a ∈ rows, ∀ b ∈ rows, a.id = b.id → a = b) (member : a ∈ rows)
    {entry : UUID × ExecutionReceipt} (inTable : entry ∈ receipts) (own : entry.2.actionId = a.id) :
    entry.1 = a.idempotencyKey := by
  obtain ⟨b, bMember, key, forB⟩ := recorded.entries entry inTable
  rw [unique a member b bMember (own.symm.trans forB.actionId)]
  exact key.symm

theorem Recorded.entry_unique (recorded : Recorded rows receipts)
    {entry entry' : UUID × ExecutionReceipt} (first : entry ∈ receipts) (second : entry' ∈ receipts)
    (same : entry.1 = entry'.1) : entry = entry' :=
  List.inj_on_of_nodup_map recorded.keys first second same

/-- An action with a receipt in the table has exactly one there. -/
theorem Recorded.one_decision (recorded : Recorded rows receipts)
    (unique : ∀ a ∈ rows, ∀ b ∈ rows, a.id = b.id → a = b) (member : a ∈ rows)
    (inTable : (a.idempotencyKey, receipt) ∈ receipts) (own : receipt.actionId = a.id) :
    (receipts.filter fun entry => entry.2.actionId = a.id).length = 1 := by
  have only : ∀ entry ∈ receipts.filter fun entry => entry.2.actionId = a.id,
      entry = (a.idempotencyKey, receipt) := by
    intro entry kept
    obtain ⟨present, about⟩ := List.mem_filter.mp kept
    exact recorded.entry_unique present inTable
      (recorded.key_of_actionId unique member present (of_decide_eq_true about))
  have distinct : (receipts.filter fun entry => entry.2.actionId = a.id).Nodup :=
    (recorded.keys.of_map _).filter _
  have kept : (a.idempotencyKey, receipt) ∈ receipts.filter fun entry => entry.2.actionId = a.id :=
    List.mem_filter.mpr ⟨inTable, decide_eq_true own⟩
  generalize receipts.filter (fun entry => entry.2.actionId = a.id) = own_ at only distinct kept
  match own_, only, distinct, kept with
  | [_], _, _, _ => rfl
  | first :: second :: rest, only, distinct, _ =>
    have same : first = second :=
      (only first (by simp)).trans (only second (by simp)).symm
    simp [same] at distinct

/-! ## Guarded steps -/

/-- The receipt that a call of the supplier system would find is one for the same action. -/
def OwnEntry (receipts : Receipts) (a : GovernedAction) : Prop :=
  ∀ existing, receipts.lookup a.idempotencyKey = some existing → existing.actionId = a.id

/-- Executed rows and calls that are about to write one hold a receipt of their own. -/
structure Owning (rows : List GovernedAction) (calls : List InFlight) (receipts : Receipts) :
    Prop where
  saving : ∀ c ∈ calls, ∀ a receipt principal, c.call = .saveExecution a receipt principal →
    ReceiptFor receipt a ∧ (a.idempotencyKey, receipt) ∈ receipts
  executed : ∀ a ∈ rows, a.status = .executed →
    ∃ receipt, a.executionReceipt = some receipt ∧ ReceiptFor receipt a ∧
      (a.idempotencyKey, receipt) ∈ receipts

section Steps

variable {calls : List InFlight} {index : Nat} {request : Request} {call : Call} {db : Store}

theorem Owning.mono (owning : Owning rows calls receipts) (grown : receipts ⊆ receipts') :
    Owning rows calls receipts' := by
  refine ⟨?_, ?_⟩
  · intro c member a receipt principal isSaving
    obtain ⟨own, inTable⟩ := owning.saving c member a receipt principal isSaving
    exact ⟨own, grown inTable⟩
  · intro a member executed
    obtain ⟨receipt, stored, own, inTable⟩ := owning.executed a member executed
    exact ⟨receipt, stored, own, grown inTable⟩

theorem Owning.setCall (owning : Owning rows calls receipts)
    (saving : ∀ a receipt principal, call = .saveExecution a receipt principal →
      ReceiptFor receipt a ∧ (a.idempotencyKey, receipt) ∈ receipts) :
    Owning rows (calls.set index ⟨request, call⟩) receipts := by
  refine ⟨?_, owning.executed⟩
  intro c member
  rcases List.mem_or_eq_of_mem_set member with old | rfl
  · exact owning.saving c old
  · exact saving

theorem Owning.setRows (owning : Owning rows calls receipts)
    (executed : ∀ a ∈ rows', a.status = .executed → a ∈ rows ∨
      ∃ receipt, a.executionReceipt = some receipt ∧ ReceiptFor receipt a ∧
        (a.idempotencyKey, receipt) ∈ receipts) : Owning rows' calls receipts := by
  refine ⟨owning.saving, ?_⟩
  intro a member isExecuted
  rcases executed a member isExecuted with old | new
  · exact owning.executed a old isExecuted
  · exact new

/-- One step of a call whose supplier entry, if it meets one, is its own. -/
theorem Owning.advance {ambient : Ambient} {p : Progress Receipts}
    (owning : Owning db.actions.rows calls receipts) (recorded : Recorded db.actions.rows receipts)
    (member : ⟨request, call⟩ ∈ calls) (ok : CallOk db.actions.rows request call)
    (ownEntry : ∀ a principal, call = .applyDecision a principal → OwnEntry receipts a)
    (advances : Advances inMemorySupplierSystem db receipts ambient now call p) :
    Owning p.store.actions.rows (calls.set index ⟨request, p.call⟩) p.supplier := by
  cases advances with
  | reads read =>
    apply owning.setCall
    intro a receipt principal isSaving
    cases isSaving
    cases read
  | inserts committed =>
    obtain ⟨_, _, rows, _⟩ := SqlAlchemyActionRepository.insertProposal_some committed
    apply Owning.setCall
    · apply owning.setRows
      intro a aMember executed
      change a ∈ (Store.actions _).rows at aMember
      rw [rows] at aMember
      rcases List.mem_append.mp aMember with old | new
      · exact .inl old
      · cases ok with
        | insertProposal _ prepared =>
          rw [List.mem_singleton.mp new, prepareAction_pending prepared] at executed
          cases executed
    · intro a receipt principal isSaving
      cases isSaving
  | decides committed =>
    obtain ⟨record, audit, _, _, _, _, rfl⟩ :=
      SqlAlchemyActionRepository.saveTransition_ok committed
    apply Owning.setCall
    · apply owning.setRows
      intro a aMember executed
      rw [SqlAlchemyActionRepository.applyTransition_rows] at aMember
      rcases mem_transitionRows aMember with ⟨old, _, _, rfl⟩ | ⟨old, _⟩
      · cases ok with
        | saveDecision verdict =>
          simp only [SqlAlchemyActionRepository.assignTransition] at executed
          rcases verdict.status with h | h <;> rw [h] at executed <;> cases executed
      · exact .inl old
    · intro a receipt principal isSaving
      cases isSaving
  | @applies action principal receipts' receipt called =>
    obtain ⟨_, returned, inTable, cases_⟩ := setOnboardingDecision_spec called
    cases returned
    have grown : receipts ⊆ receipts' := by
      rcases cases_ with ⟨rfl, _⟩ | ⟨rfl, _⟩
      · exact List.Subset.refl _
      · exact List.subset_append_left _ _
    apply (owning.mono grown).setCall
    rintro a r p ⟨⟩
    refine ⟨?_, inTable⟩
    rcases cases_ with ⟨_, found⟩ | ⟨_, _, own⟩
    · -- the entry is for the row of this action, and so for its decision
      cases ok with
      | applyDecision copy =>
        obtain ⟨b, bMember, identity, _⟩ := copy.row
        obtain ⟨a', aMember', _, own⟩ := recorded.entries _ (mem_of_lookup found)
        have sameId : a'.id = b.id := by
          rw [← own.actionId, ownEntry _ _ rfl _ found]
          exact (congrArg ActionIdentity.id identity).symm
        rw [Table.eq_of_pk aMember' bMember sameId] at own
        exact own.of_identity identity.symm
    · exact own
  | @applyRaises action principal receipts' detail called =>
    obtain ⟨_, returned, _⟩ := setOnboardingDecision_spec called
    cases returned
  | @executes action receipt principal _ committed =>
    obtain ⟨record, audit, found, sameId, _, _, rfl⟩ :=
      SqlAlchemyActionRepository.saveTransition_ok committed
    obtain ⟨own, inTable⟩ := owning.saving _ member action receipt principal rfl
    apply Owning.setCall
    · apply owning.setRows
      intro a aMember executed
      rw [SqlAlchemyActionRepository.applyTransition_rows] at aMember
      rcases mem_transitionRows aMember with ⟨old, oldMember, same, rfl⟩ | ⟨old, _⟩
      · cases ok with
        | saveExecution copy =>
          obtain ⟨b, bMember, identity, _⟩ := copy.row
          have isRow : old = b := Table.eq_of_pk oldMember bMember
            (same.trans (congrArg ActionIdentity.id identity).symm)
          subst isRow
          refine .inr ⟨receipt, rfl, own.of_identity identity, ?_⟩
          have key : old.idempotencyKey = action.idempotencyKey :=
            congrArg ActionIdentity.idempotencyKey identity
          show (old.idempotencyKey, receipt) ∈ receipts
          rw [key]
          exact inTable
      · exact .inl old
    · intro a receipt principal isSaving
      cases isSaving

end Steps

end SupplierAssurance.Governance

namespace SupplierAssurance.World

open Python Lib Governance Outbox SqlAlchemyOutboxRepository

variable {ω φ : Type} {platform : Platform Receipts Datetime ω φ} {w w' : World Receipts ω}
  {label : Label Datetime φ}

/-! ## Runs -/

theorem recorded_step (inMemory : platform.supplier = inMemorySupplierSystem)
    (governed : w.Governed) (recorded : Recorded w.store.actions.rows w.supplier)
    (moved : step platform w label = some w') : Recorded w'.store.actions.rows w'.supplier := by
  have evolved := recorded.evolve (rowsEvolve_step governed moved)
  cases step_moves moved with
  | @advance index ambient input c p at_ advances =>
    have ok := governed.callsOk _ (List.mem_of_getElem? at_)
    obtain ⟨request, call⟩ := c
    rw [inMemory] at advances
    cases advances with
    | reads | inserts | decides | executes => exact evolved
    | applies called =>
      cases ok with
      | applyDecision copy =>
        obtain ⟨b, member, identity, _⟩ := copy.row
        exact recorded.apply member identity called
    | applyRaises called =>
      cases ok with
      | applyDecision copy =>
        obtain ⟨b, member, identity, _⟩ := copy.row
        exact recorded.apply member identity called
  | submit | claim | load | start | acknowledge | crash | storeCase | storeReview => exact evolved

/-- The step is not a call of the supplier system that would find another action's receipt. -/
def OwnKey (w : World Receipts ω) (label : Label Datetime φ) : Prop :=
  ∀ index ambient input request a principal, label = .advance index ambient input →
    w.calls[index]? = some ⟨request, .applyDecision a principal⟩ → OwnEntry w.supplier a

theorem owning_step (inMemory : platform.supplier = inMemorySupplierSystem)
    (governed : w.Governed) (recorded : Recorded w.store.actions.rows w.supplier)
    (owning : Owning w.store.actions.rows w.calls w.supplier) (ownKey : w.OwnKey label)
    (moved : step platform w label = some w') :
    Owning w'.store.actions.rows w'.calls w'.supplier := by
  cases step_moves moved with
  | submit request now =>
    refine ⟨?_, owning.executed⟩
    intro c member a receipt principal isSaving
    rcases List.mem_append.mp member with old | new
    · exact owning.saving c old a receipt principal isSaving
    · rw [List.mem_singleton.mp new] at isSaving
      cases request <;> simp only [Call.enter] at isSaving <;> split at isSaving <;> cases isSaving
  | @advance index ambient input c p at_ advances =>
    obtain ⟨request, call⟩ := c
    rw [inMemory] at advances
    refine owning.advance recorded (List.mem_of_getElem? at_)
      (governed.callsOk _ (List.mem_of_getElem? at_)) ?_ advances
    rintro a principal rfl
    exact ownKey index ambient input request a principal rfl at_
  | acknowledge _ _ acknowledged =>
    cases acknowledged with
    | unchanged | failed => exact owning
    | published =>
      refine ⟨owning.saving, ?_⟩
      intro a' member executed
      change a' ∈ (publish _ _ _ _ _ _).actions.rows at member
      rw [publish_actions] at member
      obtain ⟨a, old, rfl⟩ := List.mem_map.mp member
      have same : a.status = .executed := by
        revert executed
        split <;> exact fun executed => executed
      obtain ⟨receipt, stored, own, inTable⟩ := owning.executed a old same
      refine ⟨receipt, ?_⟩
      split <;> exact ⟨stored, ⟨own.actionId, own.decision⟩, inTable⟩
  | claim | load | start | crash | storeCase | storeReview => exact owning

/-- What every run from an empty receipt table keeps. -/
structure Receipting (w : World Receipts ω) : Prop where
  governed : w.Governed
  recorded : Recorded w.store.actions.rows w.supplier

theorem receipting_step (inMemory : platform.supplier = inMemorySupplierSystem)
    (receipting : w.Receipting) (moved : step platform w label = some w') : w'.Receipting :=
  ⟨governed_step receipting.governed moved,
    recorded_step inMemory receipting.governed receipting.recorded moved⟩

theorem receipting_initial (caseIds reviewIds : List UUID) (workflow : ω) :
    Receipting (initial caseIds reviewIds ([] : Receipts) workflow) where
  governed := Governance.Governed.nil
  recorded := ⟨List.nodup_nil, by simp [initial]⟩

theorem receipting_steps (inMemory : platform.supplier = inMemorySupplierSystem)
    (receipting : w.Receipting) (steps : Steps (step platform) w w') : w'.Receipting :=
  steps.invariant receipting fun holds _ moved => receipting_step inMemory holds moved

/-- A receipt stays in the table. -/
theorem supplier_subset_steps (inMemory : platform.supplier = inMemorySupplierSystem)
    (steps : Steps (step platform) w w') : w.supplier ⊆ w'.supplier := by
  refine steps.related (I := fun _ => True) (R := fun w w' => w.supplier ⊆ w'.supplier) trivial
    (fun _ _ _ => trivial) (fun _ => List.Subset.refl _) List.Subset.trans ?_
  intro w _ w' _ _ moved
  cases step_moves moved with
  | @advance index ambient input c p _ advances =>
    obtain ⟨request, call⟩ := c
    rw [inMemory] at advances
    cases advances with
    | reads | inserts | decides | executes => exact List.Subset.refl _
    | applies called | applyRaises called =>
      obtain ⟨_, _, _, ⟨rfl, _⟩ | ⟨rfl, _⟩⟩ := setOnboardingDecision_spec called
      · exact List.Subset.refl _
      · exact List.subset_append_left _ _
  | submit | claim | load | start | acknowledge | crash | storeCase | storeReview =>
    exact List.Subset.refl _

/-! ## Every executed action has a receipt of its own -/

def OwnReceipts (w : World Receipts ω) : Prop :=
  ∀ a ∈ w.store.actions.rows, a.status = .executed → OwnReceipt w.supplier a

theorem Owning.ownReceipts (receipting : w.Receipting)
    (owning : Owning w.store.actions.rows w.calls w.supplier) : w.OwnReceipts := by
  intro a member executed
  obtain ⟨receipt, stored, own, inTable⟩ := owning.executed a member executed
  refine ⟨⟨receipt, stored, own.actionId, own.decision⟩, ?_⟩
  exact receipting.recorded.one_decision (fun _ h _ h' same => Table.eq_of_pk h h' same) member
    inTable own.actionId

/-- Once the key of an action has another action's receipt, it never gets one of its own. -/
theorem not_ownReceipt_of_foreign (inMemory : platform.supplier = inMemorySupplierSystem)
    (receipting : w.Receipting) {index : Nat} {request : Request} {a b : GovernedAction}
    {principal : Principal} (at_ : w.calls[index]? = some ⟨request, .applyDecision a principal⟩)
    (foreign : ¬ OwnEntry w.supplier a) (steps : Steps (step platform) w w')
    (member : b ∈ w'.store.actions.rows) (sameId : b.id = a.id) : ¬ OwnReceipt w'.supplier b := by
  rintro ⟨_, counted⟩
  have later := receipting_steps inMemory receipting steps
  have key : b.idempotencyKey = a.idempotencyKey := by
    cases receipting.governed.callsOk _ (List.mem_of_getElem? at_) with
    | applyDecision copy =>
      obtain ⟨row, rowMember, identity, _⟩ := copy.row
      obtain ⟨row', rowMember', identity', _⟩ :=
        rowsAdvance_steps receipting.governed steps row rowMember
      have same := identity'.trans identity
      have isRow : b = row' :=
        Table.eq_of_pk member rowMember' (sameId.trans (congrArg ActionIdentity.id same).symm)
      rw [isRow]
      exact congrArg ActionIdentity.idempotencyKey same
  simp only [OwnEntry, not_forall] at foreign
  obtain ⟨existing, found, other⟩ := foreign
  have kept := supplier_subset_steps inMemory steps (mem_of_lookup found)
  obtain ⟨entry, single⟩ := List.length_eq_one_iff.mp counted
  obtain ⟨inTable, own⟩ := List.mem_filter.mp (single ▸ List.mem_singleton_self entry)
  have about : entry.2.actionId = b.id := of_decide_eq_true own
  have entryKey := later.recorded.key_of_actionId (fun _ h _ h' same => Table.eq_of_pk h h' same)
    member inTable about
  rw [later.recorded.entry_unique inTable kept (entryKey.trans key)] at about
  exact other (about.trans sameId)

/-- An executable test for `OwnKey`. -/
def ownKeyTest (w : World Receipts ω) : Label Datetime φ → Bool
  | .advance index _ _ =>
    match w.calls[index]? with
    | some ⟨_, .applyDecision a _⟩ =>
      (w.supplier.lookup a.idempotencyKey).all fun existing => existing.actionId = a.id
    | _ => true
  | _ => true

theorem ownKey_of_test (passed : w.ownKeyTest label = true) : w.OwnKey label := by
  rintro index ambient input request a principal rfl at_ existing found
  simp only [ownKeyTest, at_, found, Option.all_some, decide_eq_true_eq] at passed
  exact passed

end SupplierAssurance.World
