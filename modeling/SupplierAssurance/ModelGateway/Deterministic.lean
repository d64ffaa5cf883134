import Mathlib.Data.List.Dedup
import Mathlib.Tactic.NormNum
import SupplierAssurance.Lib.Infix
import SupplierAssurance.ModelGateway.Backends

/-! # `DeterministicBackend`

The offline backend: fixed rules over the lower-cased text of the documents, and a synthesis
by the worst severity.  A rule with `absence` reports that none of its terms was found.

Lower-casing is a parameter that works character by character and leaves the line break as
it is, so the text of all documents, joined with line breaks, holds a term exactly when one
of the documents does.
-/

namespace SupplierAssurance

/-- `f"{category}"`. -/
def RiskCategory.value : RiskCategory → String
  | .security => "security"
  | .legal => "legal"
  | .financial => "financial"

namespace ModelGateway

open Python Lib

/-- `str.lower`, one character at a time. -/
structure LowerCase where
  char : Char → List Char
  newline : char '\n' = ['\n']

def LowerCase.lower (case_ : LowerCase) (text : List Char) : List Char :=
  text.flatMap case_.char

/-- The lower case of the ASCII letters. -/
def LowerCase.ascii : LowerCase := ⟨fun c => [c.toLower], by decide⟩

/-! ## `_rules` -/

structure Rule where
  terms : List String
  absence : Bool
  severity : Severity
  title : String
  summary : String
  remediation : String

def rules : RiskCategory → List Rule
  | .security =>
    [{ terms := ["shared credentials", "shared password"]
       absence := false
       severity := .critical
       title := "Shared credentials are permitted"
       summary := "The supplied security material permits shared credentials."
       remediation := "Require named accounts and enforced multi-factor authentication." },
     { terms := ["soc 2", "iso 27001"]
       absence := true
       severity := .medium
       title := "Independent security assurance is missing"
       summary := "No SOC 2 or ISO 27001 assurance was found."
       remediation := "Obtain a current SOC 2 Type II report or ISO 27001 certificate." }]
  | .legal =>
    [{ terms := ["unlimited liability"]
       absence := false
       severity := .high
       title := "Unlimited liability clause"
       summary := "The contract includes an unlimited liability obligation."
       remediation := "Negotiate a proportionate aggregate liability cap." },
     { terms := ["automatic renewal", "auto-renewal"]
       absence := false
       severity := .medium
       title := "Automatic renewal requires control"
       summary := "The agreement renews automatically without an explicit review gate."
       remediation := "Add a renewal notice and owner review requirement." }]
  | .financial =>
    [{ terms := ["going concern", "negative cash flow"]
       absence := false
       severity := .high
       title := "Financial continuity concern"
       summary := "The financial evidence contains a business continuity warning."
       remediation := "Obtain current financial statements and a continuity mitigation plan." }]

/-! ## `_review` -/

/-- `context.get("documents", [])`. -/
def ModelContext.documents : ModelContext → List DocumentInput
  | .review _ _ documents => documents
  | .synthesis _ _ => []

/-- `f"{context.get('case_id')}"`. -/
def ModelContext.caseIdText : ModelContext → String
  | .review caseId _ _ => caseId.str
  | .synthesis _ _ => "None"

/-- `context.get("findings", [])`. -/
def ModelContext.findings : ModelContext → List Finding
  | .review _ _ _ => []
  | .synthesis findings _ => findings

/-- `term in text`. -/
def Occurs (term : String) (text : List Char) : Prop :=
  term.toList <:+: text

instance (term : String) (text : List Char) : Decidable (Occurs term text) :=
  inferInstanceAs (Decidable (term.toList <:+: text))

section

variable (case_ : LowerCase)

def combined (documents : List DocumentInput) : List Char :=
  case_.lower (['\n'].intercalate (documents.map (·.content.toList)))

/-- `term in content.lower()`. -/
def Mentions (document : DocumentInput) (term : String) : Prop :=
  Occurs term (case_.lower document.content.toList)

instance (document : DocumentInput) (term : String) : Decidable (Mentions case_ document term) :=
  inferInstanceAs (Decidable (Occurs term _))

/-- The evidence that quotes the opening of a document. -/
def opening (document : DocumentInput) : Evidence where
  documentTitle := document.title
  quote := String.ofList (document.content.toList.take 1000)
  sourceUri := document.sourceUri
  quote_bounded := by
    have nonempty := document.content_nonempty
    simp only [Bounded, String.length_ofList, List.length_take, String.length_toList]
    omega

def findEvidence (documents : List DocumentInput) (term : String) : List Evidence :=
  match documents.find? (Mentions case_ · term) with
  | some document => [opening document]
  | none => []

/-- The doubles nearest to 0.96, 0.82 and 0.9. -/
def citedConfidence : ℚ := 1080863910568919 / 1125899906842624
def uncitedConfidence : ℚ := 7385903388887613 / 9007199254740992
def defaultConfidence : ℚ := 8106479329266893 / 9007199254740992

/-- The term of a rule that is matched. -/
def matched (text : List Char) (rule : Rule) : Option String :=
  rule.terms.find? (Occurs · text)

def finding (category : RiskCategory) (context : ModelContext) (rule : Rule)
    (evidence : List Evidence) : Finding where
  id := uuid5 NAMESPACE_URL (context.caseIdText ++ ":" ++ category.value ++ ":" ++ rule.title)
  category := category
  severity := rule.severity
  title := rule.title
  summary := rule.summary
  evidence := evidence
  remediation := rule.remediation
  confidence := if evidence.isEmpty then uncitedConfidence else citedConfidence
  confidence_range := by
    simp only [uncitedConfidence, citedConfidence]
    split <;> norm_num

/-- One turn of the loop over the rules. -/
def applyRule (category : RiskCategory) (context : ModelContext) (rule : Rule) : Option Finding :=
  let text := combined case_ context.documents
  let term := matched text rule
  if term.isNone && !rule.absence then none
  else if rule.absence && rule.terms.any (Occurs · text) then none
  else
    let evidence := match term with
      | some term => findEvidence case_ context.documents term
      | none => []
    some (finding category context rule evidence)

def review (category : RiskCategory) (context : ModelContext) : List Finding :=
  (rules category).filterMap (applyRule case_ category context)

end

/-! ## `_synthesize` -/

/-- `min(..., default=0.9)`. -/
def leastConfidence : List Finding → ℚ
  | [] => defaultConfidence
  | finding :: rest => rest.foldl (fun least finding => min least finding.confidence) finding.confidence

theorem leastConfidence_range (findings : List Finding) :
    0 ≤ leastConfidence findings ∧ leastConfidence findings ≤ 1 := by
  cases findings with
  | nil => norm_num [leastConfidence, defaultConfidence]
  | cons finding rest =>
    have range : ∀ (rest : List Finding) (least : ℚ), 0 ≤ least ∧ least ≤ 1 →
        0 ≤ rest.foldl (fun least finding => min least finding.confidence) least ∧
          rest.foldl (fun least finding => min least finding.confidence) least ≤ 1 := by
      intro rest
      induction rest with
      | nil => intro least inRange; exact inRange
      | cons finding rest ih =>
        intro least inRange
        exact ih _ ⟨le_min inRange.1 finding.confidence_range.1, (min_le_left _ _).trans inRange.2⟩
    exact range rest _ finding.confidence_range

/-- The decision by the worst severity. -/
def decisionFor (findings : List Finding) : Decision :=
  if findings.any (·.severity = .critical) then .escalate
  else if findings.any (·.severity = .high) || findings.any (·.severity = .medium) then .remediate
  else .approve

def rationaleFor (findings : List Finding) : String :=
  if findings.isEmpty then "No material risks were identified in the supplied evidence."
  else "The review identified " ++ toString findings.length ++ " finding(s) across " ++
    toString (findings.map (·.category)).dedup.length ++ " risk domain(s)."

def synthesize (context : ModelContext) : Recommendation where
  decision := decisionFor context.findings
  rationale := rationaleFor context.findings
  requiredActions := context.findings.map (·.remediation)
  confidence := leastConfidence context.findings
  confidence_range := leastConfidence_range context.findings

/-! ## `generate` -/

/-- The two kinds of values whose JSON a backend returns here. -/
inductive ModelOutput where
  | findingBatch (batch : FindingBatch)
  | recommendation (recommendation : Recommendation)

/-- The category of a specialist task. -/
def ModelTask.category? : ModelTask → Option RiskCategory
  | .securityReview => some .security
  | .legalReview => some .legal
  | .financialReview => some .financial
  | .synthesize => none

/-- `DeterministicBackend.generate`; the category of the synthesis is not looked up. -/
def generate (case_ : LowerCase) (request : ModelRequest) : ModelOutput :=
  match request.task.category? with
  | none => .recommendation (synthesize request.context)
  | some category => .findingBatch ⟨review case_ category request.context⟩

end ModelGateway

end SupplierAssurance
