import SupplierAssurance.Schemas

/-! # Model requests and the live adapters

A `ModelRequest` is provider-neutral; each adapter turns it into the keyword arguments of one
call of its client.  `payload` is these arguments as a JSON object: nothing else of the
request reaches the provider.
-/

namespace SupplierAssurance.ModelGateway

open Python

inductive ModelTask where
  | securityReview | legalReview | financialReview | synthesize
deriving DecidableEq, Repr

/-- The tasks of the specialist reviewers. -/
def ModelTask.specialists : List ModelTask := [.securityReview, .legalReview, .financialReview]

/-- `context`: the dictionary of a specialist request, or that of the synthesis. -/
inductive ModelContext where
  | review (caseId : UUID) (supplierName : String) (documents : List DocumentInput)
  | synthesis (findings : List Finding) (evidenceConfirmation : Option EvidenceConfirmation)
deriving DecidableEq

structure ModelRequest where
  task : ModelTask
  systemPrompt : String
  userPrompt : String
  context : ModelContext
  schemaName : String
  responseSchema : Json

/-- The `text` argument of the Responses API. -/
def responseFormat (request : ModelRequest) : Json :=
  .obj [("format", .obj [("type", .str "json_schema"), ("name", .str request.schemaName),
    ("strict", .bool true), ("schema", request.responseSchema)])]

/-- `OpenAIResponsesBackend.generate` with its model. -/
def openAIPayload (model : String) (request : ModelRequest) : Json :=
  .obj [("model", .str model), ("instructions", .str request.systemPrompt),
    ("input", .str request.userPrompt), ("store", .bool false), ("text", responseFormat request)]

/-- `LiteLLMBackend.generate` with its model alias. -/
def liteLLMPayload (modelAlias : String) (request : ModelRequest) : Json :=
  .obj [("model", .str modelAlias), ("instructions", .str request.systemPrompt),
    ("input", .str request.userPrompt), ("text", responseFormat request)]

/-- `BedrockConverseBackend.generate` with its model identifier. -/
def bedrockPayload (modelId : String) (request : ModelRequest) : Json :=
  let schema := request.responseSchema.dumpsCompact
  let prompt := request.userPrompt ++ "\n\nReturn only JSON matching this schema:\n" ++ schema
  .obj [("modelId", .str modelId), ("system", .arr [.obj [("text", .str request.systemPrompt)]]),
    ("messages", .arr [.obj [("role", .str "user"),
      ("content", .arr [.obj [("text", .str prompt)]])]]),
    ("inferenceConfig", .obj [("temperature", .float "0.0"), ("maxTokens", .int 4096)])]

/-- The live adapters, each with the model it was configured with. -/
inductive LiveAdapter where
  | openAIResponses (model : String)
  | liteLLM (modelAlias : String)
  | bedrockConverse (modelId : String)

def LiveAdapter.payload : LiveAdapter → ModelRequest → Json
  | .openAIResponses model => openAIPayload model
  | .liteLLM modelAlias => liteLLMPayload modelAlias
  | .bedrockConverse modelId => bedrockPayload modelId

/-- What an adapter reads of a request. -/
structure SameWire (r r' : ModelRequest) : Prop where
  systemPrompt : r'.systemPrompt = r.systemPrompt
  userPrompt : r'.userPrompt = r.userPrompt
  schemaName : r'.schemaName = r.schemaName
  responseSchema : r'.responseSchema = r.responseSchema

theorem LiveAdapter.payload_eq (adapter : LiveAdapter) {r r' : ModelRequest} (same : SameWire r r') :
    adapter.payload r' = adapter.payload r := by
  cases adapter with
  | openAIResponses model | liteLLM model =>
    simp only [payload, openAIPayload, liteLLMPayload, responseFormat, same.systemPrompt,
      same.userPrompt, same.schemaName, same.responseSchema]
  | bedrockConverse modelId =>
    simp only [payload, bedrockPayload, same.systemPrompt, same.userPrompt, same.responseSchema]

end SupplierAssurance.ModelGateway
