import SupplierAssurance.ModelGateway.Deterministic

/-! # What the findings of `DeterministicBackend` cite

A rule is applied to the joined text of the documents, and the evidence is looked for in one
document after the other.  Both agree on whether a term occurs, since no term has a line break
in it.  The quote is the opening of the document found, wherever in it the term stands.
-/

namespace SupplierAssurance.ModelGateway

open Python Lib

/-! ## Terms and documents -/

theorem rules_terms {category : RiskCategory} {rule : Rule} (isRule : rule ∈ rules category)
    {term : String} (isTerm : term ∈ rule.terms) : '\n' ∉ term.toList ∧ term.toList ≠ [] := by
  have checked : ∀ rule ∈ rules category, ∀ term ∈ rule.terms,
      '\n' ∉ term.toList ∧ term.toList ≠ [] := by
    cases category <;> decide
  exact checked rule isRule term isTerm

/-- The rules of a category have titles of their own. -/
theorem rules_title_inj {category : RiskCategory} {rule rule' : Rule}
    (isRule : rule ∈ rules category) (isRule' : rule' ∈ rules category)
    (same : rule.title = rule'.title) : rule = rule' := by
  cases category with
  | security | legal =>
    simp only [rules, List.mem_cons, List.not_mem_nil, or_false] at isRule isRule'
    rcases isRule with rfl | rfl <;> rcases isRule' with rfl | rfl <;>
      first | rfl | exact absurd same (by decide)
  | financial =>
    simp only [rules, List.mem_singleton] at isRule isRule'
    rw [isRule, isRule']

section

variable {case_ : LowerCase} {documents : List DocumentInput}

theorem LowerCase.lower_intercalate (case_ : LowerCase) (texts : List (List Char)) :
    case_.lower (['\n'].intercalate texts) = ['\n'].intercalate (texts.map case_.lower) := by
  induction texts with
  | nil => rfl
  | cons text rest ih =>
    cases rest with
    | nil => simp
    | cons next rest =>
      simp only [List.map_cons, List.intercalate_cons_cons] at ih ⊢
      rw [← ih]
      simp [LowerCase.lower, case_.newline]

/-- A term of a rule occurs in the joined text exactly when a document mentions it. -/
theorem occurs_combined_iff {category : RiskCategory} {rule : Rule} (isRule : rule ∈ rules category)
    {term : String} (isTerm : term ∈ rule.terms) :
    Occurs term (combined case_ documents) ↔ ∃ document ∈ documents, Mentions case_ document term := by
  obtain ⟨oneLine, nonempty⟩ := rules_terms isRule isTerm
  rw [Occurs, combined, LowerCase.lower_intercalate, infix_intercalate_iff oneLine nonempty]
  simp only [List.map_map, List.mem_map, Function.comp_apply, exists_exists_and_eq_and]
  rfl

/-- The first term of a rule that some document mentions. -/
def firstTerm (case_ : LowerCase) (documents : List DocumentInput) (rule : Rule) : Option String :=
  rule.terms.find? fun term => documents.any (Mentions case_ · term)

/-- The first document that mentions a term. -/
def firstDocument (case_ : LowerCase) (documents : List DocumentInput) (term : String) :
    Option DocumentInput :=
  documents.find? (Mentions case_ · term)

theorem matched_combined {category : RiskCategory} {rule : Rule} (isRule : rule ∈ rules category) :
    matched (combined case_ documents) rule = firstTerm case_ documents rule := by
  have same : ∀ term ∈ rule.terms, decide (Occurs term (combined case_ documents)) =
      documents.any (Mentions case_ · term) := by
    intro term isTerm
    rw [Bool.eq_iff_iff, decide_eq_true_iff, occurs_combined_iff isRule isTerm]
    simp
  have found : ∀ terms : List String, (∀ term ∈ terms, term ∈ rule.terms) →
      terms.find? (Occurs · (combined case_ documents)) =
        terms.find? fun term => documents.any (Mentions case_ · term) := by
    intro terms areTerms
    induction terms with
    | nil => rfl
    | cons term rest ih =>
      simp only [List.find?_cons, same term (areTerms term List.mem_cons_self)]
      rw [ih fun other member => areTerms other (List.mem_cons_of_mem _ member)]
  exact found rule.terms fun _ member => member

theorem firstTerm_some {rule : Rule} {term : String}
    (first : firstTerm case_ documents rule = some term) :
    term ∈ rule.terms ∧ ∃ document ∈ documents, Mentions case_ document term := by
  refine ⟨List.mem_of_find?_eq_some first, ?_⟩
  simpa using List.find?_some first

theorem firstTerm_none_iff {rule : Rule} : firstTerm case_ documents rule = none ↔
    ∀ term ∈ rule.terms, ∀ document ∈ documents, ¬ Mentions case_ document term := by
  simp [firstTerm]

/-- A matched term is found again in a document. -/
theorem exists_firstDocument {rule : Rule} {term : String}
    (first : firstTerm case_ documents rule = some term) :
    ∃ document ∈ documents, firstDocument case_ documents term = some document := by
  obtain ⟨_, document, member, mentions⟩ := firstTerm_some first
  cases found : firstDocument case_ documents term with
  | none => exact absurd mentions (by simpa using List.find?_eq_none.mp found document member)
  | some document' => exact ⟨document', List.mem_of_find?_eq_some found, rfl⟩

theorem findEvidence_eq {term : String} {document : DocumentInput}
    (first : firstDocument case_ documents term = some document) :
    findEvidence case_ documents term = [opening document] := by
  rw [firstDocument] at first
  rw [findEvidence, first]

end

/-! ## What a rule emits -/

section

variable {case_ : LowerCase} {category : RiskCategory} {context : ModelContext} {rule : Rule}

/-- A presence rule cites the first document that mentions its first matching term. -/
theorem applyRule_presence (isRule : rule ∈ rules category) (presence : rule.absence = false)
    {found : Finding} : applyRule case_ category context rule = some found ↔
      ∃ term document, firstTerm case_ context.documents rule = some term ∧
        firstDocument case_ context.documents term = some document ∧
        found = finding category context rule [opening document] := by
  simp only [applyRule, matched_combined isRule, presence, Bool.not_false, Bool.and_true,
    Bool.false_and, Bool.false_eq_true, if_false]
  cases first : firstTerm case_ context.documents rule with
  | none => simp
  | some term =>
    obtain ⟨document, _, isFirst⟩ := exists_firstDocument first
    simp [isFirst, findEvidence_eq isFirst, eq_comm]

/-- An absence rule emits a finding without evidence, when no document mentions its terms. -/
theorem applyRule_absence (isRule : rule ∈ rules category) (absence : rule.absence = true)
    {found : Finding} : applyRule case_ category context rule = some found ↔
      firstTerm case_ context.documents rule = none ∧ found = finding category context rule [] := by
  have anyTerm : rule.terms.any (Occurs · (combined case_ context.documents)) =
      (firstTerm case_ context.documents rule).isSome := by
    rw [← matched_combined isRule, matched, Bool.eq_iff_iff, List.find?_isSome, List.any_eq_true]
  simp only [applyRule, matched_combined isRule, anyTerm, absence, Bool.not_true, Bool.and_false,
    Bool.true_and, Bool.false_eq_true, if_false]
  cases first : firstTerm case_ context.documents rule with
  | none => simp [eq_comm]
  | some term => simp

theorem title_of_applyRule {found : Finding}
    (emitted : applyRule case_ category context rule = some found) : found.title = rule.title := by
  simp only [applyRule] at emitted
  split at emitted
  · cases emitted
  · split at emitted <;> cases emitted
    rfl

theorem mem_review_iff {found : Finding} : found ∈ review case_ category context ↔
    ∃ rule ∈ rules category, applyRule case_ category context rule = some found :=
  List.mem_filterMap

end

/-! ## Support -/

/-- A finding of a rule is supported by the documents. -/
structure Supported (case_ : LowerCase) (documents : List DocumentInput) (rule : Rule)
    (found : Finding) : Prop where
  cited : rule.absence = false → ∃ evidence, found.evidence = [evidence] ∧
    (∃ document ∈ documents, evidence.documentTitle = document.title ∧
      evidence.sourceUri = document.sourceUri) ∧
    ∃ term ∈ rule.terms, Occurs term (case_.lower evidence.quote.toList)
  uncited : found.evidence = [] → rule.absence = true ∧
    ∀ term ∈ rule.terms, ∀ document ∈ documents, ¬ Mentions case_ document term

/-- The document that a presence rule cites mentions one of its terms in its first 1000
    characters. -/
def MentionedEarly (case_ : LowerCase) (documents : List DocumentInput) (rule : Rule) : Prop :=
  ∀ term document, firstTerm case_ documents rule = some term →
    firstDocument case_ documents term = some document →
    ∃ term' ∈ rule.terms, Occurs term' (case_.lower (document.content.toList.take 1000))

section

variable {case_ : LowerCase} {category : RiskCategory} {context : ModelContext} {rule : Rule}

theorem quote_opening (document : DocumentInput) :
    (opening document).quote.toList = document.content.toList.take 1000 := by
  simp [opening]

theorem supported_absence (isRule : rule ∈ rules category) (absence : rule.absence = true)
    {found : Finding} (emitted : applyRule case_ category context rule = some found) :
    Supported case_ context.documents rule found := by
  obtain ⟨first, rfl⟩ := (applyRule_absence isRule absence).mp emitted
  refine ⟨fun presence => ?_, fun _ => ⟨absence, firstTerm_none_iff.mp first⟩⟩
  rw [absence] at presence
  cases presence

theorem supported_presence (isRule : rule ∈ rules category) (presence : rule.absence = false)
    (early : MentionedEarly case_ context.documents rule) {found : Finding}
    (emitted : applyRule case_ category context rule = some found) :
    Supported case_ context.documents rule found := by
  obtain ⟨term, document, first, isFirst, rfl⟩ := (applyRule_presence isRule presence).mp emitted
  refine ⟨fun _ => ⟨opening document, rfl, ?_, ?_⟩, fun uncited => ?_⟩
  · exact ⟨document, List.mem_of_find?_eq_some isFirst, rfl, rfl⟩
  · rw [quote_opening]
    exact early term document first isFirst
  · cases uncited

/-- A supported finding of a presence rule was found early in its document. -/
theorem mentionedEarly_of_supported (isRule : rule ∈ rules category)
    (presence : rule.absence = false)
    (supported : ∀ found, applyRule case_ category context rule = some found →
      Supported case_ context.documents rule found) :
    MentionedEarly case_ context.documents rule := by
  intro term document first isFirst
  have emitted : applyRule case_ category context rule =
      some (finding category context rule [opening document]) :=
    (applyRule_presence isRule presence).mpr ⟨term, document, first, isFirst, rfl⟩
  obtain ⟨evidence, only, _, quoted⟩ := (supported _ emitted).cited presence
  obtain rfl : opening document = evidence := List.singleton_inj.mp only
  rwa [quote_opening] at quoted

end

/-- For all documents and every category: all findings are supported exactly when each
    presence rule that matches finds a term of its in the opening of the document it cites. -/
theorem review_supported_iff (case_ : LowerCase) (category : RiskCategory) (caseId : UUID)
    (supplierName : String) (documents : List DocumentInput) :
    (∀ found ∈ review case_ category (.review caseId supplierName documents),
      ∃ rule ∈ rules category, found.title = rule.title ∧ Supported case_ documents rule found) ↔
    ∀ rule ∈ rules category, rule.absence = false → MentionedEarly case_ documents rule := by
  constructor
  · intro claimed rule isRule presence
    have supported : ∀ found,
        applyRule case_ category (.review caseId supplierName documents) rule = some found →
          Supported case_ documents rule found := by
      intro found emitted
      obtain ⟨rule', isRule', title, supported⟩ := claimed found
        (mem_review_iff.mpr ⟨rule, isRule, emitted⟩)
      obtain rfl := rules_title_inj isRule isRule' ((title_of_applyRule emitted).symm.trans title)
      exact supported
    exact mentionedEarly_of_supported isRule presence supported
  · intro early found member
    obtain ⟨rule, isRule, emitted⟩ := mem_review_iff.mp member
    refine ⟨rule, isRule, title_of_applyRule emitted, ?_⟩
    cases absence : rule.absence with
    | true => exact supported_absence isRule absence emitted
    | false => exact supported_presence isRule absence (early rule isRule absence) emitted

/-- A policy whose first 1000 characters say nothing of its last sentence. -/
def policy : DocumentInput where
  title := "Security policy"
  content := String.ofList (List.replicate 1000 '.' ++ "Shared credentials are allowed.".toList)
  sourceUri := none
  title_bounded := by decide
  content_nonempty := by
    rw [String.length_ofList, List.length_append, List.length_replicate]
    omega

theorem policy_mentions : Mentions .ascii policy "shared credentials" := by
  have lastSentence : Occurs "shared credentials"
      (LowerCase.ascii.lower "Shared credentials are allowed.".toList) := by decide
  simp only [Mentions, policy, String.toList_ofList, LowerCase.lower, List.flatMap_append]
  exact List.infix_append_of_infix_right lastSentence

/-- No term can occur in the dots. -/
theorem policy_opening_silent {term : String} (letter : 's' ∈ term.toList) :
    ¬ Occurs term (LowerCase.ascii.lower (policy.content.toList.take 1000)) := by
  intro occurs
  obtain ⟨c, member, lowered⟩ := List.mem_flatMap.mp (occurs.subset letter)
  have isDot : c = '.' := by
    simp only [policy, String.toList_ofList] at member
    rw [List.take_left' (by rw [List.length_replicate])] at member
    exact List.eq_of_mem_replicate member
  rw [isDot] at lowered
  exact absurd lowered (by decide)

/-- The security review of the policy cites an excerpt that does not mention shared
    credentials. -/
theorem policy_citation_unsupported :
    ¬ ∀ (case_ : LowerCase) (category : RiskCategory) (caseId : UUID) (supplierName : String)
        (documents : List DocumentInput),
      ∀ found ∈ review case_ category (.review caseId supplierName documents),
        ∃ rule ∈ rules category, found.title = rule.title ∧ Supported case_ documents rule found := by
  intro claimed
  obtain ⟨rule, isRule, presence, head, letters⟩ : ∃ rule ∈ rules .security, rule.absence = false ∧
      (∃ rest, rule.terms = "shared credentials" :: rest) ∧ ∀ term ∈ rule.terms, 's' ∈ term.toList :=
    ⟨_, List.mem_cons_self, rfl, ⟨_, rfl⟩, by decide⟩
  obtain ⟨rest, terms⟩ := head
  have first : firstTerm .ascii [policy] rule = some "shared credentials" := by
    simp [firstTerm, terms, policy_mentions]
  have isFirst : firstDocument .ascii [policy] "shared credentials" = some policy := by
    simp [firstDocument, policy_mentions]
  have emitted : applyRule .ascii .security (.review ⟨0⟩ "Acme" [policy]) rule =
      some (finding .security (.review ⟨0⟩ "Acme" [policy]) rule [opening policy]) :=
    (applyRule_presence isRule presence).mpr ⟨_, policy, first, isFirst, rfl⟩
  obtain ⟨rule', isRule', title, supported⟩ := claimed .ascii .security ⟨0⟩ "Acme" [policy] _
    (mem_review_iff.mpr ⟨rule, isRule, emitted⟩)
  obtain rfl := rules_title_inj isRule isRule' ((title_of_applyRule emitted).symm.trans title)
  obtain ⟨evidence, only, _, term, isTerm, quoted⟩ := supported.cited presence
  obtain rfl : opening policy = evidence := List.singleton_inj.mp only
  rw [quote_opening] at quoted
  exact policy_opening_silent (letters term isTerm) quoted

end SupplierAssurance.ModelGateway
