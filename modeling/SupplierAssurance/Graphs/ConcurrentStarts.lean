import SupplierAssurance.Graphs.Execution

/-! # Concurrent starts of one execution

A start reads the thread and, if it is empty, invokes the graph in a later step.  When
every start that invokes the graph still finds the thread empty, the specialists run once
and all starts return the same execution.  Two starts that both read an empty thread both
invoke the graph, and the accumulating reducer appends every batch a second time.

A finding is stored under an identifier derived from the one the backend chose, so findings
are told apart only as far as the batches of one invocation tell them apart.
-/

namespace SupplierAssurance.Graphs

open Python Lib ModelGateway

/-- The backend answers every request with a schema-valid output. -/
structure Services.Valid (services : Services) : Prop where
  review : ∀ request, (services.review request).isOk
  synthesize : ∀ request, (services.synthesize request).isOk

/-- The batches that the specialists of an invocation return. -/
def Invocation.batches (schemas : JsonSchemas) (invocation : Invocation) :
    List (ModelTask × List Finding) :=
  ModelTask.specialists.map fun task =>
    (task, rawBatch schemas invocation.services invocation.checkpoint.values task)

/-- The single findings of batches, each with the specialist that returned it. -/
def entries (batches : List (ModelTask × List Finding)) : List (ModelTask × Finding) :=
  batches.flatMap fun batch => batch.2.map fun finding => (batch.1, finding)

/-- Two findings are stored under one identifier only if one specialist repeated it. -/
def IdsDistinct (executionId : UUID) (batches : List (ModelTask × List Finding)) : Prop :=
  (entries batches).Pairwise fun a b =>
    storedId executionId a.2 = storedId executionId b.2 → a.1 = b.1 ∧ a.2.id = b.2.id

/-- The specialists choose different identifiers, and `uuid5` keeps these apart. -/
def IdsApart (executionId : UUID) (batches : List (ModelTask × List Finding)) : Prop :=
  ∀ a ∈ entries batches, ∀ b ∈ entries batches,
    (a.2.id = b.2.id → a.1 = b.1) ∧ (storedId executionId a.2 = storedId executionId b.2 → a.2.id = b.2.id)

instance (executionId : UUID) (batches : List (ModelTask × List Finding)) :
    Decidable (IdsApart executionId batches) :=
  inferInstanceAs (Decidable (∀ a ∈ entries batches, ∀ b ∈ entries batches, _))

theorem IdsApart.distinct {executionId : UUID} {batches : List (ModelTask × List Finding)}
    (apart : IdsApart executionId batches) : IdsDistinct executionId batches := by
  refine List.pairwise_of_forall_mem_list ?_
  intro a member b member' stored
  have raw := (apart a member b member').2 stored
  exact ⟨(apart a member b member').1 raw, raw⟩

/-- The findings are those of the batches, one batch after the other in some order. -/
def Merged (executionId : UUID) (batches : List (ModelTask × List Finding))
    (findings : List Finding) : Prop :=
  ∃ merged, merged.Perm batches ∧
    findings = (entries merged).map fun entry => storedFinding executionId entry.2

namespace ReviewWorld

def batches (schemas : JsonSchemas) (w : ReviewWorld) : List (ModelTask × List Finding) :=
  w.invocations.flatMap (·.batches schemas)

/-- The findings of the execution are the batches that were returned to it, every specialist
    at most once, and all calls return one execution. -/
structure NoDuplicates (schemas : JsonSchemas) (executionId : UUID) (w : ReviewWorld) : Prop where
  stored : ∀ checkpoint, w.thread = some checkpoint →
    Merged executionId (w.batches schemas) checkpoint.values.findings
  once : ((w.batches schemas).map (·.1)).Nodup
  ids : IdsDistinct executionId (w.batches schemas)
  same : ∀ called ∈ w.calls, ∀ called' ∈ w.calls, ∀ answer answer',
    called.call = .returned answer → called'.call = .returned answer' →
    ∃ execution, answer = .ok execution ∧ answer' = .ok execution

/-- Only start calls, with valid backend outputs. -/
def StartsOnly : ReviewLabel → Prop
  | .submit (.start ..) => True
  | .submit (.resume ..) => False
  | .advance _ services => services.Valid

/-- The invocation that a step of a start makes. -/
def startInvocation (executionId : UUID) (w : ReviewWorld) : ReviewLabel → Option Invocation
  | .submit _ => none
  | .advance index services =>
    match w.calls[index]? with
    | some ⟨.start supplierCase required, .invoking⟩ =>
      some (.input services w.thread (startInput services supplierCase executionId required))
    | _ => none

/-- No start overtook the one that invokes the graph, and the backend tells its findings
    apart. -/
def Unraced (schemas : JsonSchemas) (executionId : UUID) (w : ReviewWorld) (label : ReviewLabel) :
    Prop :=
  ∀ invocation ∈ w.startInvocation executionId label,
    w.thread = none ∧ IdsApart executionId (invocation.batches schemas)

instance (schemas : JsonSchemas) (executionId : UUID) (w : ReviewWorld) (label : ReviewLabel) :
    Decidable (w.Unraced schemas executionId label) :=
  inferInstanceAs (Decidable (∀ invocation ∈ w.startInvocation executionId label, _))

end ReviewWorld

/-! ## The findings of an invocation -/

section

variable {schemas : JsonSchemas} {services : Services}

theorem ReviewNode.answered_of_valid (valid : services.Valid) (state : ReviewGraphState)
    (node : ReviewNode) : node.answered schemas services state := by
  cases node with
  | securityReview | legalReview | financialReview => exact valid.review _
  | evidenceConfirmation => rfl
  | synthesize => exact valid.synthesize _

theorem ReviewNode.merge_findings {node : ReviewNode} {state : ReviewGraphState}
    {value : Option EvidenceConfirmation} {update : ReviewUpdate} (past : node ∉ specialistNodes)
    (updated : node.run schemas services state value = .update update) (state' : ReviewGraphState) :
    (state'.merge update).findings = state'.findings := by
  cases node with
  | securityReview | legalReview | financialReview => simp [specialistNodes] at past
  | evidenceConfirmation =>
    simp only [run, confirmationNode] at updated
    cases value <;> split at updated <;> cases updated <;> rfl
  | synthesize =>
    simp only [run, synthesizeNode] at updated
    split at updated <;> cases updated
    rfl

/-- Past the specialists no node returns findings, and no edge leads back. -/
theorem run_keeps_findings (limit : Nat) (value : Option EvidenceConfirmation)
    (checkpoint : ReviewCheckpoint) (past : ∀ node ∈ checkpoint.next, node ∉ specialistNodes) :
    ((reviewGraph schemas).run services limit value checkpoint).1.values.findings =
      checkpoint.values.findings := by
  have kept := Pregel.run_invariant (reviewGraph schemas) services
    (I := fun checkpoint' => (∀ node ∈ checkpoint'.next, node ∉ specialistNodes) ∧
      checkpoint'.values.findings = checkpoint.values.findings) id ?_ limit value checkpoint
    ⟨past, rfl⟩
  · exact kept.2
  · intro checkpoint' updates holds ran
    obtain ⟨past, same⟩ := holds
    constructor
    · intro node triggered
      -- a specialist is triggered again only if all of them are pending
      have skipped : ¬ specialistNodes ⊆ checkpoint'.next := by
        intro all
        exact past .legalReview (all (by decide)) (by decide)
      simp only [reviewGraph, edges, skipped, if_false, List.nil_append] at triggered
      split at triggered
      · split at triggered
        · cases triggered
        · cases List.mem_singleton.mp triggered
          decide
      · cases triggered
    · refine List.foldlRecOn (motive := fun state : ReviewGraphState =>
        state.findings = checkpoint.values.findings) updates _ same ?_
      intro state kept update member
      obtain ⟨node, pending, value, updated⟩ := ran update member
      exact (ReviewNode.merge_findings (past node pending) updated state).trans kept

/-- The first input on a thread leaves the batches of its invocation. -/
theorem input_findings (valid : services.Valid) (input : ReviewGraphState)
    (fresh : input.findings = []) :
    Merged input.executionId ((Invocation.input services none input).batches schemas)
      ((Invocation.input services none input).outcome schemas).1.values.findings := by
  have pending : (Invocation.input services none input).checkpoint.next ≠ [] := by
    simp [Invocation.input, specialistNodes]
  have answered : ∀ node ∈ (Invocation.input services none input).checkpoint.next,
      node.answered schemas services (Invocation.input services none input).checkpoint.values :=
    fun node _ => node.answered_of_valid valid _
  have ran : (Invocation.input services none input).outcome schemas =
      (reviewGraph schemas).run services 24 none _ :=
    Pregel.run_advanced pending (specialists_superStep rfl answered)
  rw [ran, run_keeps_findings _ _ _ (by simp [specialistNodes])]
  refine ⟨_, services.specialists_perm.map fun task => (task, rawBatch schemas services input task), ?_⟩
  simp [Invocation.input, entries, ReviewGraphState.startOver, fresh, List.flatMap_map,
    List.map_flatMap, Function.comp_def]

theorem Invocation.batches_tasks (invocation : Invocation) :
    ((invocation.batches schemas).map (·.1)).Nodup := by
  simp [batches, ModelTask.specialists]

/-- With a valid backend no invocation raises. -/
theorem Ended.returned_of_valid {checkpoints : List ReviewCheckpoint}
    {result : ReviewCheckpoint × Except (GraphError String) Unit}
    (ended : Ended schemas services checkpoints result) (valid : services.Valid) :
    result.2 = .ok () ∧ Settled result.1 := by
  cases ended with
  | returned settled => exact ⟨rfl, settled⟩
  | raised _ _ unanswered =>
    exact absurd (fun checkpoint _ node _ => node.answered_of_valid valid checkpoint.values) unanswered

end

/-! ## Runs without a race -/

/-- Before the invocation of some start nothing has returned; after it every start returns
    what that one left. -/
structure StartedOnce (schemas : JsonSchemas) (home : SupplierCase) (executionId : UUID)
    (w : ReviewWorld) : Prop where
  threaded : Threaded schemas home executionId w
  starts : ∀ called ∈ w.calls, ∃ supplierCase required,
    called.request = .start supplierCase required
  settled : ∀ checkpoint, w.thread = some checkpoint → Settled checkpoint
  answers : ∀ called ∈ w.calls, ∀ answer, called.call = .returned answer →
    ∃ checkpoint, w.thread = some checkpoint ∧ answer = executionFromSnapshot checkpoint
  one : ∀ checkpoint, w.thread = some checkpoint → ∃ invocation, w.invocations = [invocation] ∧
    IdsDistinct executionId (invocation.batches schemas) ∧
    Merged executionId (invocation.batches schemas) checkpoint.values.findings

section

variable {schemas : JsonSchemas} {home : SupplierCase} {executionId : UUID} {w w' : ReviewWorld}

theorem StartedOnce.answered (started : StartedOnce schemas home executionId w) {index : Nat}
    {request : ReviewRequest} {call : ReviewCall} (call' : ReviewCall)
    (at_ : w.calls[index]? = some ⟨request, call⟩)
    (answers : ∀ answer, call' = .returned answer →
      ∃ checkpoint, w.thread = some checkpoint ∧ answer = executionFromSnapshot checkpoint) :
    StartedOnce schemas home executionId (w.answered index request call') where
  threaded := started.threaded.answered call' at_
  starts := by
    intro called member
    cases List.mem_or_eq_of_mem_set member with
    | inl old => exact started.starts called old
    | inr new =>
      subst new
      exact started.starts ⟨request, call⟩ (List.mem_of_getElem? at_)
  settled := started.settled
  answers := by
    intro called member answer returned
    cases List.mem_or_eq_of_mem_set member with
    | inl old => exact started.answers called old answer returned
    | inr new =>
      subst new
      exact answers answer returned
  one := started.one

/-- The first invocation: the thread was empty, so nothing had returned before. -/
theorem StartedOnce.invoked (started : StartedOnce schemas home executionId w) {index : Nat}
    {supplierCase : SupplierCase} {required : Bool} {services : Services}
    (at_ : w.calls[index]? = some ⟨.start supplierCase required, .invoking⟩) (fresh : w.thread = none)
    (valid : services.Valid) (distinct : IdsDistinct executionId ((Invocation.input services none
      (startInput services supplierCase executionId required)).batches schemas))
    (threaded : Threaded schemas home executionId (w.invoked schemas index
      (.start supplierCase required) (.input services none
        (startInput services supplierCase executionId required)))) :
    StartedOnce schemas home executionId (w.invoked schemas index (.start supplierCase required)
      (.input services none (startInput services supplierCase executionId required))) := by
  let invocation := Invocation.input services none
    (startInput services supplierCase executionId required)
  obtain ⟨ok, settled⟩ : (invocation.outcome schemas).2 = .ok () ∧
      Settled (invocation.outcome schemas).1 :=
    (invoke_ended none supplierCase executionId required).returned_of_valid valid
  have none_before := started.threaded.no_invocation fresh
  have calls : (w.invoked schemas index (.start supplierCase required) invocation).calls =
      (w.answered index (.start supplierCase required) .reloading).calls := by
    simp [ReviewWorld.invoked, ReviewWorld.answered, ok]
  have stood := started.answered .reloading at_ (by simp)
  refine ⟨threaded, calls ▸ stood.starts, ?_, ?_, ?_⟩
  · intro checkpoint thread
    cases thread
    exact settled
  · intro called member answer returned
    rw [calls] at member
    obtain ⟨checkpoint, thread, -⟩ := stood.answers called member answer returned
    exact absurd (fresh.symm.trans thread) (by simp)
  · intro checkpoint thread
    cases thread
    refine ⟨invocation, by simp [ReviewWorld.invoked, none_before, invocation], distinct, ?_⟩
    exact input_findings valid (startInput services supplierCase executionId required) rfl

theorem startedOnce_step {label : ReviewLabel} (started : StartedOnce schemas home executionId w)
    (valid : ReviewWorld.StartsOnly label) (unraced : w.Unraced schemas executionId label)
    (moved : ReviewWorld.step schemas home executionId w label = some w') :
    StartedOnce schemas home executionId w' := by
  have threaded := threaded_step started.threaded moved
  cases ReviewWorld.step_moves moved with
  | @submit request admitted =>
    refine ⟨threaded, ?_, started.settled, ?_, started.one⟩
    · intro called member
      cases List.mem_append.mp member with
      | inl old => exact started.starts called old
      | inr new =>
        cases List.mem_singleton.mp new
        cases request with
        | start supplierCase required => exact ⟨supplierCase, required, rfl⟩
        | resume => exact valid.elim
    · intro called member answer returned
      cases List.mem_append.mp member with
      | inl old => exact started.answers called old answer returned
      | inr new =>
        cases List.mem_singleton.mp new
        cases returned
  | startFresh at_ thread => exact started.answered _ at_ (by simp)
  | startExisting at_ thread =>
    have same := started.threaded.admitted _ (List.mem_of_getElem? at_)
    have inScope := started.threaded.inScope _ thread
    refine started.answered _ at_ ?_
    intro answer returned
    cases returned
    exact ⟨_, thread, inScope.getExecution same⟩
  | @startInvoke index services supplierCase required at_ =>
    -- `unraced`: no other start has written the thread since this one read it
    obtain ⟨fresh, apart⟩ := unraced (.input services w.thread
      (startInput services supplierCase executionId required)) (by
        simp [ReviewWorld.startInvocation, at_])
    rw [fresh] at threaded apart ⊢
    exact started.invoked at_ fresh valid apart.distinct threaded
  | resumeAnswer at_ | resumeAwaiting at_ | resumeInvoke at_ =>
    obtain ⟨supplierCase, required, start⟩ := started.starts _ (List.mem_of_getElem? at_)
    cases start
  | reload at_ thread =>
    refine started.answered _ at_ ?_
    intro answer returned
    cases returned
    exact ⟨_, thread, rfl⟩

theorem StartedOnce.noDuplicates (started : StartedOnce schemas home executionId w) :
    w.NoDuplicates schemas executionId := by
  cases thread : w.thread with
  | none =>
    have none_before := started.threaded.no_invocation thread
    refine ⟨by simp [thread], by simp [ReviewWorld.batches, none_before],
      by simp [ReviewWorld.batches, none_before, IdsDistinct, entries], ?_⟩
    intro called member called' member' answer answer' returned
    obtain ⟨checkpoint, some_, -⟩ := started.answers called member answer returned
    simp [thread] at some_
  | some checkpoint =>
    obtain ⟨invocation, only, distinct, findings⟩ := started.one checkpoint thread
    have batches : w.batches schemas = invocation.batches schemas := by
      simp [ReviewWorld.batches, only]
    refine ⟨?_, batches ▸ invocation.batches_tasks, batches ▸ distinct, ?_⟩
    · intro checkpoint' thread'
      cases thread.symm.trans thread'
      rw [batches]
      exact findings
    · intro called member called' member' answer answer' returned returned'
      obtain ⟨execution, ok, -⟩ := (started.settled checkpoint thread).execution
      obtain ⟨_, same, rfl⟩ := started.answers called member answer returned
      obtain ⟨_, same', rfl⟩ := started.answers called' member' answer' returned'
      cases thread.symm.trans same
      cases thread.symm.trans same'
      exact ⟨execution, ok, ok⟩

/-- Any number of start calls in any order: nothing is duplicated as long as each invocation
    finds the thread still empty and the backend tells the findings of its batches apart. -/
theorem noDuplicates_of_unraced
    (steps : StepsWhen (ReviewWorld.step schemas home executionId)
      (fun w label => ReviewWorld.StartsOnly label ∧ ReviewWorld.Unraced schemas executionId w label)
      .initial w) :
    w.NoDuplicates schemas executionId := by
  have started : StartedOnce schemas home executionId w := by
    refine steps.invariant ?_ fun started met moved => startedOnce_step started met.1 met.2 moved
    exact ⟨threaded_of_reachable .refl, by simp [ReviewWorld.initial],
      by simp [ReviewWorld.initial], by simp [ReviewWorld.initial], by simp [ReviewWorld.initial]⟩
  exact started.noDuplicates

end

namespace Sample

def finding : Finding where
  id := ⟨0xf⟩
  category := .security
  severity := .high
  title := "Unencrypted data"
  summary := "Data at rest is not encrypted."
  evidence := [⟨"Contract", "Data is stored unencrypted.", none, by decide⟩]
  remediation := "Encrypt the data."
  confidence := 1
  confidence_range := certain_range

/-- The security reviewer reports one finding, the others none. -/
def reporting : Services :=
  { approving with
    review := fun request => .ok (if request.task = .securityReview then [finding] else []) }

def startCall (index : Nat) : ReviewLabel := .advance index reporting

theorem reporting_valid : reporting.Valid :=
  ⟨fun _ => rfl, fun _ => rfl⟩

/-- Two gated starts, one after the other. -/
def twoStarts : List ReviewLabel :=
  [.submit (.start supplierCase true), startCall 0, startCall 0, startCall 0,
    .submit (.start supplierCase true), startCall 1]

/-- Two gated starts that both read the thread before either invokes the graph. -/
def racingStarts : List ReviewLabel :=
  [.submit (.start supplierCase true), .submit (.start supplierCase true), startCall 0, startCall 1,
    startCall 0, startCall 1, startCall 0, startCall 1]

theorem startsOnly_of_mem {label : ReviewLabel} (member : label ∈ twoStarts ∨ label ∈ racingStarts) :
    ReviewWorld.StartsOnly label := by
  have one : label = .submit (.start supplierCase true) ∨ ∃ index, label = startCall index := by
    simp only [twoStarts, racingStarts, List.mem_cons, List.not_mem_nil, or_false] at member
    grind
  cases one with
  | inl submitted =>
    subst submitted
    trivial
  | inr advanced =>
    obtain ⟨index, rfl⟩ := advanced
    exact reporting_valid

end Sample

open Sample in
theorem noDuplicates_of_unraced_two_starts :
    ∃ w : ReviewWorld, w.calls.length = 2 ∧ w.Quiet ∧
      w.thread.map (·.values.findings.length) = some 1 ∧ w.NoDuplicates schemas executionId := by
  have replayed : ((runWhen (ReviewWorld.step schemas supplierCase executionId)
      (fun w label => decide (w.Unraced schemas executionId label)) .initial twoStarts).map
        fun w => decide (w.calls.length = 2 ∧ w.Quiet ∧
          w.thread.map (·.values.findings.length) = some 1)) = some true := by decide +kernel
  obtain ⟨w, ran, passed⟩ := Option.map_eq_some_iff.mp replayed
  obtain ⟨two, quiet, one⟩ := of_decide_eq_true passed
  have steps : StepsWhen (ReviewWorld.step schemas supplierCase executionId) (fun w label =>
      ReviewWorld.StartsOnly label ∧ ReviewWorld.Unraced schemas executionId w label) .initial w :=
    stepsWhen_of_runWhen
      (fun _ _ member passed => ⟨startsOnly_of_mem (.inl member), of_decide_eq_true passed⟩) ran
  exact ⟨w, two, quiet, one, noDuplicates_of_unraced steps⟩

open Sample in
/-- Two starts that race: the finding of the security reviewer is stored twice. -/
theorem not_noDuplicates_racing_starts :
    ¬ ∀ (schemas : JsonSchemas) (home : SupplierCase) (executionId : UUID) (w : ReviewWorld),
      StepsWhen (ReviewWorld.step schemas home executionId)
        (fun _ label => ReviewWorld.StartsOnly label) .initial w →
      w.NoDuplicates schemas executionId := by
  intro claimed
  have replayed : ((runWhen (ReviewWorld.step schemas supplierCase executionId)
      (fun _ _ => true) .initial racingStarts).map fun w =>
        decide ((w.batches schemas).map (·.1)).Nodup) = some false := by decide +kernel
  obtain ⟨w, ran, failed⟩ := Option.map_eq_some_iff.mp replayed
  have steps : StepsWhen (ReviewWorld.step schemas supplierCase executionId)
      (fun _ label => ReviewWorld.StartsOnly label) .initial w :=
    stepsWhen_of_runWhen (fun _ _ member _ => startsOnly_of_mem (.inr member)) ran
  exact of_decide_eq_false failed (claimed schemas supplierCase executionId w steps).once

end SupplierAssurance.Graphs
