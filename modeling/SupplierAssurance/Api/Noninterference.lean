import SupplierAssurance.Api.States

/-! # Tenants do not learn of each other

All endpoints of `Endpoints` on two states that agree on the data of the principal's tenant:
they answer alike and leave the other tenants' data as it was, unless an approver decides on
another tenant's action, or a proposal comes upon another tenant's action that has the
identifier of the new one.
-/

namespace SupplierAssurance.Api

open Python Lib Graphs Governance

section

variable {names : Set String} {s s' : ApiState} {principal : Principal}
variable {schemas : JsonSchemas} {draws : Draws}

/-- The name from which a start derives its execution. -/
def Endpoint.Named (names : Set String) (tenantId : String) : Endpoint → Prop
  | .startReviewExecution caseId key _ => executionName tenantId caseId key ∈ names
  | _ => True

/-- `start_review_execution` and `resume_review_execution`. -/
theorem noninterfering_of_process {endpoint : Endpoint} {request : ApiRequest} {status : Nat}
    (processes : ∀ s, respond schemas draws s principal endpoint =
      ((process schemas draws s request).1,
        httpResponse status ((process schemas draws s request).2.map .execution)))
    (isPrincipal : request.principal = principal) (formed : s.Formed names) (formed' : s'.Formed names)
    (injective : Set.InjOn (uuid5 NAMESPACE_URL) names) (notAdmin : .admin ∉ principal.roles)
    (named : request.Named names principal.tenantId)
    (agree : s.restrict principal.tenantId = s'.restrict principal.tenantId) :
    Noninterfering schemas draws principal endpoint s s' := by
  subst isPrincipal
  obtain ⟨restricted, others⟩ :=
    process_confined schemas draws formed.app injective notAdmin named
  obtain ⟨restricted', others'⟩ :=
    process_confined schemas draws formed'.app injective notAdmin named
  have sameAnswer : (process schemas draws s request).2 = (process schemas draws s' request).2 := by
    rw [agree] at restricted
    exact (Prod.mk.inj (restricted.symm.trans restricted')).2
  refine ⟨?_, ?_, ?_⟩
  · rw [processes, processes, sameAnswer]
  · intro other differ
    rw [processes]
    exact others other differ
  · intro other differ
    rw [processes]
    exact others' other differ

/-- Every endpoint, for every principal who is not an administrator and every two states that
    agree on the data of the principal's tenant. -/
theorem noninterfering_iff_separated (injective : Set.InjOn (uuid5 NAMESPACE_URL) names)
    (formed : s.Formed names) (formed' : s'.Formed names) (notAdmin : .admin ∉ principal.roles)
    (agree : s.restrict principal.tenantId = s'.restrict principal.tenantId) (endpoint : Endpoint)
    (named : endpoint.Named names principal.tenantId) :
    Noninterfering schemas draws principal endpoint s s' ↔
      Separated draws principal s s' endpoint := by
  cases endpoint with
  | getCase caseId =>
    refine iff_of_true (noninterfering_of_read (fun s => rfl) ?_ agree) trivial
    intro s
    simp only [ApiState.restrict, getAuthorizedCase_restrict notAdmin]
  | startReviewExecution caseId key required =>
    exact iff_of_true (noninterfering_of_process (fun s => rfl) rfl formed formed' injective notAdmin
      named agree) trivial
  | getReviewExecution caseId executionId =>
    refine iff_of_true (noninterfering_of_read (fun s => rfl) ?_ agree) trivial
    intro s
    simp only [getReviewExecution_restrict notAdmin]
  | resumeReviewExecution caseId executionId confirmation =>
    have noName : (ApiRequest.resume caseId executionId confirmation principal).Named names
        principal.tenantId := trivial
    exact iff_of_true (noninterfering_of_process (fun s => rfl) rfl formed formed' injective notAdmin
      noName agree) trivial
  | getLatestReview caseId =>
    refine iff_of_true (noninterfering_of_read (fun s => rfl) ?_ agree) trivial
    intro s
    simp only [getLatestReview_restrict notAdmin]
  | listAuditEvents caseId =>
    refine iff_of_true (noninterfering_of_read (fun s => rfl) ?_ agree) trivial
    intro s
    simp only [listAuditEvents_restrict notAdmin]
  | proposeCaseAction caseId proposal => exact propose_noninterfering_iff formed formed' notAdmin agree
  | getAction actionId =>
    refine iff_of_true (noninterfering_of_read (fun s => rfl) ?_ agree) trivial
    intro s
    simp only [getAction_restrict notAdmin]
  | decideAction actionId request => exact decide_noninterfering_iff formed formed' notAdmin agree

end

/-! ## Two tenants

tenant-a creates a case.  In the second state tenant-b has created one as well, reviewed it and
proposed an action for it. -/

namespace Sample

open SupplierAssurance.Sample Graphs.Sample

/-- The identifiers have the version bits of `uuid4`. -/
def draws (request : Nat) : Draws where
  services := approving
  ambient n := ⟨n, ⟨BitVec.ofNat 128 (0x40008000000000000000 + 32 * request + 2 * n)⟩,
    ⟨BitVec.ofNat 128 (0x40008000000000000000 + 32 * request + 2 * n + 1)⟩⟩

def caseIdA : UUID := ((draws 0).ambient 0).uuid
def caseIdB : UUID := ((draws 1).ambient 0).uuid

def proposal : ActionProposalRequest := ⟨⟨0xc⟩⟩

def actionIdB : UUID := actionIdFor analystB.tenantId proposal.idempotencyKey

def stateA : ApiState := (createCase (draws 0) .empty ⟨"Acme", "", []⟩ analystA).1
def createdB : ApiState := (createCase (draws 1) stateA ⟨"Beta", "", []⟩ analystB).1
def reviewedB : ApiState := (reviewCase schemas (draws 2) createdB caseIdB analystB).1
def stateAB : ApiState := (proposeCaseAction (draws 3) reviewedB caseIdB proposal analystB).1

abbrev Reached (names : Set String) (s : ApiState) : Prop :=
  StepsWhen (ApiState.step schemas) (ApiState.Fresh names) .empty s

section

variable (names : Set String)

theorem reached_stateA : Reached names stateA := by
  have created : ApiState.empty.step schemas ⟨.createCase ⟨"Acme", "", []⟩, analystA, draws 0⟩ =
      some stateA := rfl
  refine .tail .refl ?_ created
  exact rfl

theorem reached_createdB : Reached names createdB := by
  have created : stateA.step schemas ⟨.createCase ⟨"Beta", "", []⟩, analystB, draws 1⟩ =
      some createdB := rfl
  refine .tail (reached_stateA names) ?_ created
  exact rfl

theorem reached_reviewedB : Reached names reviewedB := by
  have reviewed : createdB.step schemas ⟨.reviewCase caseIdB, analystB, draws 2⟩ = some reviewedB := rfl
  refine .tail (reached_createdB names) ?_ reviewed
  exact ⟨by decide, rfl⟩

theorem reached_stateAB : Reached names stateAB := by
  have proposed : reviewedB.step schemas
      ⟨.respond (.proposeCaseAction caseIdB proposal), analystB, draws 3⟩ = some stateAB := rfl
  refine .tail (reached_reviewedB names) ?_ proposed
  trivial

end

/-- What tenant-b did changed nothing of tenant-a. -/
theorem agree_tenantA : stateAB.restrict "tenant-a" = stateA.restrict "tenant-a" := by
  have injective : Set.InjOn (uuid5 NAMESPACE_URL) ∅ := Set.injOn_empty _
  have formedA := formed_of_run injective (reached_stateA ∅)
  have formedB := formed_of_run injective (reached_createdB ∅)
  have formedReviewed := formed_of_run injective (reached_reviewedB ∅)
  have notTenantB : "tenant-a" ≠ analystB.tenantId := by decide
  have notAdmin : .admin ∉ analystB.roles := by decide
  have created : createdB.restrict "tenant-a" = stateA.restrict "tenant-a" := by
    have within : Within ∅ analystB.tenantId stateA createdB :=
      createCase_within formedA ⟨"Beta", "", []⟩ rfl
    exact within.others "tenant-a" notTenantB
  have reviewed : reviewedB.restrict "tenant-a" = createdB.restrict "tenant-a" := by
    obtain ⟨tenantId, isTenant, within⟩ : ∃ tenantId,
        (.admin ∉ analystB.roles → tenantId = analystB.tenantId) ∧ Within ∅ tenantId createdB reviewedB :=
      reviewCase_within formedB (by decide) rfl
    rw [isTenant notAdmin] at within
    exact within.others "tenant-a" notTenantB
  have proposed : stateAB.restrict "tenant-a" = reviewedB.restrict "tenant-a" := by
    have unused : (reviewedB.actions.actions actionIdB).isNone = true := by decide +kernel
    have notForeign : ¬ reviewedB.Foreign analystB.tenantId actionIdB := by
      rintro ⟨action, found, _⟩
      rw [found] at unused
      cases unused
    have separated : Separated (draws 3) analystB reviewedB reviewedB
        (.proposeCaseAction caseIdB proposal) := fun _ => ⟨notForeign, notForeign⟩
    have noninterfering : Noninterfering schemas (draws 3) analystB (.proposeCaseAction caseIdB proposal)
        reviewedB reviewedB :=
      (propose_noninterfering_iff formedReviewed formedReviewed notAdmin rfl).mpr separated
    exact noninterfering.unchanged "tenant-a" notTenantB
  rw [proposed, reviewed, created]

theorem actionB_found : ∃ action, stateAB.actions.actions actionIdB = some action ∧
    action.tenantId = "tenant-b" := by
  have stored : ((stateAB.actions.actions actionIdB).any (·.tenantId = "tenant-b")) = true := by
    decide +kernel
  obtain ⟨action, found, isTenant⟩ := (Option.any_eq_true _ _).mp stored
  exact ⟨action, found, of_decide_eq_true isTenant⟩

end Sample

open SupplierAssurance.Sample Graphs.Sample Sample in
/-- An analyst of tenant-a starts a review of tenant-a's case, and an approver of tenant-a asks for
    tenant-b's action. -/
theorem noninterfering_iff_separated_two_tenants :
    (stateAB.actions.actions actionIdB).isSome = true ∧
      (stateA.actions.actions actionIdB).isSome = false ∧
      Noninterfering schemas (draws 4) analystA
        (.startReviewExecution caseIdA ⟨0x5⟩ true) stateAB stateA ∧
      Noninterfering schemas (draws 4) approverA (.getAction actionIdB) stateAB stateA := by
  have injective : Set.InjOn (uuid5 NAMESPACE_URL) {executionName analystA.tenantId caseIdA ⟨0x5⟩} :=
    Set.injOn_singleton _ _
  have formedAB := formed_of_run injective (reached_stateAB _)
  have formedA := formed_of_run injective (reached_stateA _)
  obtain ⟨action, found, _⟩ := actionB_found
  refine ⟨by rw [found]; rfl, rfl, ?_, ?_⟩
  · exact (noninterfering_iff_separated injective formedAB formedA (by decide) agree_tenantA
      (.startReviewExecution caseIdA ⟨0x5⟩ true) (Set.mem_singleton _)).mpr trivial
  · exact (noninterfering_iff_separated injective formedAB formedA (by decide) agree_tenantA
      (.getAction actionIdB) trivial).mpr trivial

open SupplierAssurance.Sample Graphs.Sample Sample in
/-- An approver of tenant-a decides on tenant-b's action: 403 where it exists, 404 where not. -/
theorem not_noninterfering_decide :
    ¬ ∀ (names : Set String) (schemas : JsonSchemas) (draws : Draws) (principal : Principal)
      (endpoint : Endpoint) (s s' : ApiState), Set.InjOn (uuid5 NAMESPACE_URL) names →
      StepsWhen (ApiState.step schemas) (ApiState.Fresh names) .empty s →
      StepsWhen (ApiState.step schemas) (ApiState.Fresh names) .empty s' →
      .admin ∉ principal.roles → s.restrict principal.tenantId = s'.restrict principal.tenantId →
      endpoint.Named names principal.tenantId →
      Noninterfering schemas draws principal endpoint s s' := by
  intro claimed
  have noninterfering := claimed ∅ schemas (draws 4) approverA (.decideAction actionIdB approval)
    stateAB stateA (Set.injOn_empty _) (reached_stateAB ∅) (reached_stateA ∅) (by decide) agree_tenantA
    trivial
  obtain ⟨action, found, isTenant⟩ := actionB_found
  have isApprover : approverA.hasRole .approver = true := by decide
  have foreign : action.tenantId ≠ approverA.tenantId := by
    rw [isTenant]
    decide
  have absent : stateA.actions.actions actionIdB = none := rfl
  have answers := congrArg HttpResponse.status noninterfering.answers
  rw [respond_decide (decideAction_foreign (by decide) isApprover found foreign),
    respond_decide (decideAction_unknown isApprover absent)] at answers
  cases answers

end SupplierAssurance.Api
