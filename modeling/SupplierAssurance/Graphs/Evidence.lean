import SupplierAssurance.Graphs.SupplierReview

/-! # What of the evidence reaches a provider

The workflow puts the evidence — the documents for a specialist, the findings and the
analyst's confirmation for the synthesis — into the context of its requests.  The live
adapters send the prompts and the response schema; the prompts name the supplier and the
case description.  So two requests that differ in the evidence alone are sent as the same
payload.
-/

namespace SupplierAssurance.Graphs

open Python ModelGateway

def ReviewGraphState.withDocuments (state : ReviewGraphState) (documents : List DocumentInput) :
    ReviewGraphState :=
  { state with supplierCase := { state.supplierCase with documents } }

def ReviewGraphState.withEvidence (state : ReviewGraphState) (findings : List Finding)
    (evidenceConfirmation : Option EvidenceConfirmation) : ReviewGraphState :=
  { state with findings, evidenceConfirmation }

/-- Two requests of the workflow for one task, from states that differ in the evidence. -/
inductive EvidenceDiffers (schemas : JsonSchemas) : ModelRequest → ModelRequest → Prop
  | documents {state : ReviewGraphState} {task : ModelTask} {documents : List DocumentInput} :
      task ∈ ModelTask.specialists → documents ≠ state.supplierCase.documents →
      EvidenceDiffers schemas (specialistRequest schemas state task)
        (specialistRequest schemas (state.withDocuments documents) task)
  | synthesis {state : ReviewGraphState} {findings : List Finding}
      {confirmation : Option EvidenceConfirmation} :
      findings ≠ state.findings ∨ confirmation ≠ state.evidenceConfirmation →
      EvidenceDiffers schemas (synthesisRequest schemas state)
        (synthesisRequest schemas (state.withEvidence findings confirmation))

/-- The provider can tell the two requests apart. -/
def Distinguished (adapter : LiveAdapter) (r r' : ModelRequest) : Prop :=
  adapter.payload r' ≠ adapter.payload r

section

variable {schemas : JsonSchemas} {r r' : ModelRequest}

theorem EvidenceDiffers.context_ne (differs : EvidenceDiffers schemas r r') :
    r'.context ≠ r.context := by
  cases differs with
  | documents _ changed =>
    intro same
    simp only [specialistRequest, modelRequest, Option.getD_none, ModelContext.review.injEq] at same
    exact changed same.2.2
  | synthesis changed =>
    intro same
    simp only [synthesisRequest, modelRequest, Option.getD_some, ModelContext.synthesis.injEq] at same
    cases changed with
    | inl changed => exact changed same.1
    | inr changed => exact changed same.2

/-- Neither builder puts evidence into what the adapters read: the user prompt names only
    the supplier and the description of the case. -/
theorem EvidenceDiffers.sameWire (differs : EvidenceDiffers schemas r r') : SameWire r r' := by
  cases differs with
  | documents => exact ⟨rfl, rfl, rfl, rfl⟩
  | synthesis => exact ⟨rfl, rfl, rfl, rfl⟩

/-- Whatever the evidence, the adapter and the model: the contexts differ and the provider
    gets the same payload. -/
theorem evidence_never_distinguished (adapter : LiveAdapter)
    (differs : EvidenceDiffers schemas r r') :
    r'.context ≠ r.context ∧ ¬ Distinguished adapter r r' := by
  refine ⟨differs.context_ne, ?_⟩
  intro distinguished
  exact distinguished (adapter.payload_eq differs.sameWire)

end

namespace Sample

def contract : DocumentInput := ⟨"Contract", "Data is stored unencrypted.", none, by decide, by decide⟩

def supplierCase : SupplierCase where
  id := ⟨0xa⟩
  tenantId := "tenant-a"
  supplierName := "Acme"
  description := "Payroll"
  status := .new
  documents := [contract]
  createdAt := 0
  updatedAt := 0
  tenantId_bounded := sampleTenant_bounded

def executionId : UUID := ⟨0xe⟩

/-- The state in which a gated execution of the case starts. -/
def startState : ReviewGraphState where
  tenantId := supplierCase.tenantId
  caseId := supplierCase.id
  executionId := executionId
  supplierCase := supplierCase
  findings := []
  recommendation := none
  modelBackend := "openai"
  startedAt := 0
  completedAt := none
  requireEvidenceConfirmation := true
  evidenceConfirmation := none
  cancelled := false

/-- Any schema will do: it is the same in both requests. -/
def schemas : JsonSchemas := fun _ => .obj [("type", .str "object")]

def confirmation : EvidenceConfirmation := ⟨.confirm, "Checked.", by decide⟩

end Sample

open Sample in
theorem evidence_never_distinguished_sample :
    EvidenceDiffers schemas (specialistRequest schemas startState .legalReview)
        (specialistRequest schemas (startState.withDocuments []) .legalReview) ∧
      ¬ Distinguished (.bedrockConverse "model") (specialistRequest schemas startState .legalReview)
        (specialistRequest schemas (startState.withDocuments []) .legalReview) ∧
      ¬ Distinguished (.liteLLM "model") (synthesisRequest schemas startState)
        (synthesisRequest schemas (startState.withEvidence [] (some confirmation))) := by
  have documents : EvidenceDiffers schemas (specialistRequest schemas startState .legalReview)
      (specialistRequest schemas (startState.withDocuments []) .legalReview) :=
    .documents (by decide) (by decide)
  have evidence : EvidenceDiffers schemas (synthesisRequest schemas startState)
      (synthesisRequest schemas (startState.withEvidence [] (some confirmation))) :=
    .synthesis (.inr (by decide))
  exact ⟨documents, (evidence_never_distinguished _ documents).2,
    (evidence_never_distinguished _ evidence).2⟩

/-- The case with its contract and the case without any document, for the legal reviewer
    behind the Responses API. -/
theorem contract_is_not_sent :
    ¬ ∀ (adapter : LiveAdapter) (schemas : JsonSchemas) (r r' : ModelRequest),
      EvidenceDiffers schemas r r' → Distinguished adapter r r' := by
  intro claimed
  have differs : EvidenceDiffers Sample.schemas
      (specialistRequest Sample.schemas Sample.startState .legalReview)
      (specialistRequest Sample.schemas (Sample.startState.withDocuments []) .legalReview) :=
    .documents (by decide) (by decide)
  exact claimed (.openAIResponses "model") _ _ _ differs rfl

end SupplierAssurance.Graphs
