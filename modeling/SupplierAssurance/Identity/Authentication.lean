import SupplierAssurance.Lib.Split
import SupplierAssurance.ModelGateway.Deterministic
import SupplierAssurance.Python.Str

/-! # `packages/identity/auth.py`

The two authenticators map request headers to a principal.  `DevelopmentAuthenticator` believes the
headers; `OIDCAuthenticator` maps the claims of an access token that the JWT library has verified.

Both raise `AuthenticationError` for credentials they reject, and the API answers 401 to that error
and to no other.  Two things are outside every handler that names them: an exception of the JWT
library of another type than the four it expects, and Pydantic's own error for the fields of
`Principal`, which are validated last.
-/

namespace SupplierAssurance

open Python

/-- `role.value`. -/
def Role.str (role : Role) : Str :=
  .ofString role.value

/-- `Role(value)`; `none` is the `ValueError`. -/
def Role.ofValue? (value : Str) : Option Role :=
  [Role.analyst, .approver, .executor, .admin].find? fun role => role.str = value

@[simp] theorem Role.ofValue?_eq_some {value : Str} {role : Role} :
    Role.ofValue? value = some role ↔ role.str = value := by
  constructor
  · intro found
    simpa using List.find?_some found
  · rintro rfl
    cases role <;> decide

namespace Identity

open Lib ModelGateway

/-! ## Principals -/

/-- `Principal`, with its scopes. -/
structure ScopedPrincipal extends Principal where
  scopes : List Str
deriving DecidableEq

/-- What an authenticator raises. -/
inductive AuthFailure where
  | authenticationError (message : String)
  /-- Pydantic's `ValidationError`. -/
  | validationError
  /-- An exception of the JWT library that the handler does not name. -/
  | unhandled (errorType : String)
deriving DecidableEq, Repr

/-- The validating constructor.  A string with bounds is validated in its encoding, which a lone
    surrogate has not; the scopes have no bounds and are taken as they are. -/
def ScopedPrincipal.validate (subject tenantId : Str) (roles : List Role) (scopes : List Str) :
    Except AuthFailure ScopedPrincipal :=
  match subject.encoded?, tenantId.encoded? with
  | some subject, some tenantId =>
    if bounded : Bounded 1 255 subject ∧ Bounded 1 255 tenantId then
      .ok ⟨⟨subject, tenantId, roles, bounded.1, bounded.2⟩, scopes⟩
    else .error .validationError
  | _, _ => .error .validationError

/-! ## `DevelopmentAuthenticator` -/

/-- `headers.get(name)`. -/
abbrev Headers := String → Option Str

/-- `headers.get(name, "")`. -/
def header (headers : Headers) (name : String) : Str :=
  (headers name).getD []

/-- `value.strip() for value in text.split(",") if value.strip()`. -/
def commaItems (text : Str) : List Str :=
  ((text.splitOn (.char ',')).map Str.strip).filter fun item => !item.isEmpty

namespace DevelopmentAuthenticator

def subject (headers : Headers) : Str :=
  (header headers "x-actor-id").strip

def tenantId (headers : Headers) : Str :=
  (header headers "x-tenant-id").strip

def roleItems (headers : Headers) : List Str :=
  commaItems (header headers "x-roles")

def scopes (headers : Headers) : List Str :=
  ((header headers "x-scopes").words.map Str.strip).filter fun scope => !scope.isEmpty

/-- `authenticate`. -/
def authenticate (headers : Headers) : Except AuthFailure ScopedPrincipal :=
  if subject headers = [] ∨ tenantId headers = [] then
    .error (.authenticationError "X-Actor-ID and X-Tenant-ID headers are required")
  else
    match (roleItems headers).mapM Role.ofValue? with
    | none => .error (.authenticationError "X-Roles contains an unknown role")
    | some roles => ScopedPrincipal.validate (subject headers) (tenantId headers) roles (scopes headers)

end DevelopmentAuthenticator

/-! ## `OIDCAuthenticator` -/

/-- A value that `json.loads` returns. -/
inductive ClaimValue where
  | null
  | bool (b : Bool)
  | int (n : Int)
  | float (repr : String)
  | str (s : Str)
  | arr (items : List ClaimValue)
  | obj (fields : List (Str × ClaimValue))

/-- The claims of a token: a JSON object. -/
abbrev Claims := List (Str × ClaimValue)

/-- `fields.get(name)`. -/
def claim (fields : List (Str × ClaimValue)) (name : String) : Option ClaimValue :=
  fields.lookup (.ofString name)

/-- What the JWT library raises: an exception that the handler around the verification names, or
    another. -/
inductive TokenFailure where
  | pyJWTError | attributeError | typeError | valueError
  | other (errorType : String)

/-- The JWT library: the signing key for a token, and `jwt.decode` with the arguments that change
    from one authenticator to another. -/
structure TokenLibrary (Key : Type) where
  getSigningKeyFromJwt : Str → Except TokenFailure Key
  decode (token : Str) (key : Key) (algorithm audience issuer : String) : Except TokenFailure Claims

structure OIDCAuthenticator (Key : Type) where
  issuer : String
  audience : String
  jwksUrl : String
  algorithm : String
  library : TokenLibrary Key
  required : issuer ≠ "" ∧ audience ≠ "" ∧ jwksUrl ≠ ""

/-- `isinstance(value, str)`. -/
def asString : ClaimValue → Option Str
  | .str text => some text
  | _ => none

/-- The strings of a claim, if it is a list. -/
def listedStrings : Option ClaimValue → List Str
  | some (.arr items) => items.filterMap asString
  | _ => []

/-- `realm_access.get("roles", [])`, if the claim is an object. -/
def realmRoles : Option ClaimValue → List Str
  | some (.obj fields) => listedStrings (claim fields "roles")
  | _ => []

/-- `text.lower()`. -/
def lower (case_ : LowerCase) (text : Str) : Str :=
  text.flatMap fun
    | .char c => (case_.char c).map .char
    | .surrogate offset => [.surrogate offset]

namespace OIDCAuthenticator

variable {Key : Type} (authenticator : OIDCAuthenticator Key)

/-- `OIDCAuthenticator.__init__`. -/
def init (issuer audience jwksUrl algorithm : String) (library : TokenLibrary Key) :
    Except String (OIDCAuthenticator Key) :=
  if required : issuer ≠ "" ∧ audience ≠ "" ∧ jwksUrl ≠ "" then
    .ok ⟨issuer, audience, jwksUrl, algorithm, library, required⟩
  else .error "OIDC issuer, audience, and JWKS URL are required"

/-- `authorization.partition(" ")` without the separator. -/
def partition (authorization : Str) : Str × Str :=
  (splitOnce [.char ' '] authorization).getD (authorization, [])

/-- The token of the `authorization` header. -/
def bearerToken (case_ : LowerCase) (headers : Headers) : Except AuthFailure Str :=
  let (scheme, token) := partition (header headers "authorization")
  if lower case_ scheme ≠ .ofString "bearer" ∨ token = [] then
    .error (.authenticationError "A bearer access token is required")
  else .ok token

/-- The claims of a token that the library accepts. -/
def verify (token : Str) : Except TokenFailure Claims := do
  let key ← authenticator.library.getSigningKeyFromJwt token
  authenticator.library.decode token key authenticator.algorithm authenticator.audience
    authenticator.issuer

/-- `role_values`. -/
def roleValues (claims : Claims) : List Str :=
  listedStrings (claim claims "roles") ++ listedStrings (claim claims "cognito:groups") ++
    realmRoles (claim claims "realm_access")

def scopes (claims : Claims) : List Str :=
  match (claim claims "scope").getD (.str []) with
  | .str rawScope => rawScope.words
  | _ => []

/-- `_principal_from_claims`. -/
def principalFromClaims (claims : Claims) : Except AuthFailure ScopedPrincipal :=
  match (claim claims "sub").bind asString, (claim claims "tenant_id").bind asString with
  | some subject, some tenantId =>
    ScopedPrincipal.validate subject tenantId ((roleValues claims).filterMap Role.ofValue?) (scopes claims)
  | _, _ => .error (.authenticationError "OIDC claims must include string sub and tenant_id values")

/-- What becomes of an exception of the library. -/
def handled : TokenFailure → AuthFailure
  | .pyJWTError | .attributeError | .typeError | .valueError =>
    .authenticationError "The bearer access token is invalid"
  | .other errorType => .unhandled errorType

/-- The claims of the token that the request presents. -/
def presentedClaims (case_ : LowerCase) (headers : Headers) : Except AuthFailure Claims := do
  let token ← bearerToken case_ headers
  (authenticator.verify token).mapError handled

/-- `authenticate`. -/
def authenticate (case_ : LowerCase) (headers : Headers) : Except AuthFailure ScopedPrincipal :=
  (authenticator.presentedClaims case_ headers).bind principalFromClaims

end OIDCAuthenticator

/-! ## The two outcomes -/

/-- Credentials are rejected, or give a principal with exactly the listed roles. -/
def TwoOutcomes (listed : Role → Prop) : Except AuthFailure ScopedPrincipal → Prop
  | .error (.authenticationError _) => True
  | .error .validationError | .error (.unhandled _) => False
  | .ok principal =>
    principal.subject ≠ "" ∧ principal.tenantId ≠ "" ∧ ∀ role, role ∈ principal.roles ↔ listed role

/-- The role is one of the items of `x-roles`. -/
def DevelopmentAuthenticator.Listed (headers : Headers) (role : Role) : Prop :=
  role.str ∈ roleItems headers

/-- The role is in a list of the claims. -/
def Listed (claims : Claims) (role : Role) : Prop :=
  ∃ items, .str role.str ∈ items ∧
    (claim claims "roles" = some (.arr items) ∨ claim claims "cognito:groups" = some (.arr items) ∨
      ∃ fields, claim claims "realm_access" = some (.obj fields) ∧
        claim fields "roles" = some (.arr items))

/-- The request presents a bearer token, on which the library ends like this. -/
def OIDCAuthenticator.Verifies {Key : Type} (authenticator : OIDCAuthenticator Key)
    (case_ : LowerCase) (headers : Headers) (outcome : Except TokenFailure Claims) : Prop :=
  ∃ token, bearerToken case_ headers = .ok token ∧ authenticator.verify token = outcome

/-- The role is in a list of the accepted claims. -/
def OIDCAuthenticator.Listed {Key : Type} (authenticator : OIDCAuthenticator Key) (case_ : LowerCase)
    (headers : Headers) (role : Role) : Prop :=
  ∃ claims, authenticator.Verifies case_ headers (.ok claims) ∧ Identity.Listed claims role

/-- A text of 1 to 255 characters, none of them a lone surrogate. -/
def Fits (text : Str) : Prop :=
  ∃ encoded : String, text = .ofString encoded ∧ Bounded 1 255 encoded

/-- One of the trimmed headers is empty, an item of `x-roles` is no role, or both headers fit. -/
def DevelopmentAuthenticator.Fit (headers : Headers) : Prop :=
  subject headers = [] ∨ tenantId headers = [] ∨
    (∃ item ∈ roleItems headers, ∀ role : Role, role.str ≠ item) ∨
    Fits (subject headers) ∧ Fits (tenantId headers)

/-- `sub` and `tenant_id` fit, if both are strings. -/
def Claims.Fit (claims : Claims) : Prop :=
  ∀ subject tenantId, claim claims "sub" = some (.str subject) →
    claim claims "tenant_id" = some (.str tenantId) → Fits subject ∧ Fits tenantId

/-- The library rejects the token with an exception that is expected of it, or it accepts claims
    that fit. -/
def OIDCAuthenticator.Fit {Key : Type} (authenticator : OIDCAuthenticator Key) (case_ : LowerCase)
    (headers : Headers) : Prop :=
  (∀ errorType, ¬ authenticator.Verifies case_ headers (.error (.other errorType))) ∧
    ∀ claims, authenticator.Verifies case_ headers (.ok claims) → claims.Fit

theorem twoOutcomes_validate {listed : Role → Prop} {subject tenantId : Str} {roles : List Role}
    {scopes : List Str} (granted : ∀ role, role ∈ roles ↔ listed role) :
    TwoOutcomes listed (ScopedPrincipal.validate subject tenantId roles scopes) ↔
      Fits subject ∧ Fits tenantId := by
  have nonempty {text : String} (bounded : Bounded 1 255 text) : text ≠ "" := by
    rintro rfl
    exact absurd bounded.1 (by decide)
  have fits_iff (encoded : String) : Fits (.ofString encoded) ↔ Bounded 1 255 encoded := by
    constructor
    · rintro ⟨encoded', same, bounded⟩
      rwa [Str.ofString_injective same]
    · exact fun bounded => ⟨encoded, rfl, bounded⟩
  unfold ScopedPrincipal.validate
  split
  next subject' tenantId' isSubject isTenant =>
    rw [Str.encoded?_eq_some.mp isSubject, Str.encoded?_eq_some.mp isTenant, fits_iff, fits_iff]
    split
    next bounded => exact iff_of_true ⟨nonempty bounded.1, nonempty bounded.2, granted⟩ bounded
    next outside => exact iff_of_false id outside
  next surrogates =>
    refine iff_of_false id ?_
    rintro ⟨⟨subject', isSubject, -⟩, ⟨tenantId', isTenant, -⟩⟩
    exact surrogates _ _ (Str.encoded?_eq_some.mpr isSubject) (Str.encoded?_eq_some.mpr isTenant)

/-! ## Roles -/

theorem mem_mapM_ofValue? {items : List Str} {roles : List Role}
    (known : items.mapM Role.ofValue? = some roles) (role : Role) : role ∈ roles ↔ role.str ∈ items := by
  have str_inj (role' : Role) : role.str = role'.str ↔ role = role' := by
    cases role <;> cases role' <;> decide
  induction items generalizing roles with
  | nil =>
    cases known
    simp
  | cons item rest ih =>
    rw [List.mapM_cons] at known
    obtain ⟨first, isFirst, others⟩ := Option.bind_eq_some_iff.mp known
    obtain ⟨later, areLater, joined⟩ := Option.bind_eq_some_iff.mp others
    cases joined
    obtain rfl := Role.ofValue?_eq_some.mp isFirst
    rw [List.mem_cons, List.mem_cons, str_inj]
    exact or_congr_right (ih areLater)

theorem mapM_ofValue?_eq_none {items : List Str} :
    items.mapM Role.ofValue? = none ↔ ∃ item ∈ items, ∀ role : Role, role.str ≠ item := by
  have unknown (item : Str) : Role.ofValue? item = none ↔ ∀ role : Role, role.str ≠ item := by
    simp [Option.eq_none_iff_forall_ne_some]
  induction items with
  | nil => simp
  | cons item rest ih =>
    rw [List.mapM_cons, List.exists_mem_cons_iff, ← unknown]
    refine Iff.trans ?_ (or_congr_right ih)
    cases Role.ofValue? item with
    | none => simp
    | some role => cases rest.mapM Role.ofValue? <;> simp

theorem mem_listedStrings {value : Option ClaimValue} {text : Str} :
    text ∈ listedStrings value ↔ ∃ items, .str text ∈ items ∧ value = some (.arr items) := by
  have isString (item : ClaimValue) : asString item = some text ↔ item = .str text := by
    cases item <;> simp [asString]
  unfold listedStrings
  split
  next items => simp [isString]
  next notList => simpa using fun items _ isList => notList items isList

theorem mem_realmRoles {value : Option ClaimValue} {text : Str} :
    text ∈ realmRoles value ↔ ∃ items, .str text ∈ items ∧
      ∃ fields, value = some (.obj fields) ∧ claim fields "roles" = some (.arr items) := by
  unfold realmRoles
  split
  next fields => simp [mem_listedStrings]
  next notObject => simpa using fun items _ fields isObject _ => notObject fields isObject

theorem mem_roleValues {claims : Claims} {role : Role} :
    role.str ∈ OIDCAuthenticator.roleValues claims ↔ Listed claims role := by
  simp only [OIDCAuthenticator.roleValues, List.mem_append, mem_listedStrings, mem_realmRoles, Listed]
  constructor
  · rintro ((⟨items, member, found⟩ | ⟨items, member, found⟩) | ⟨items, member, found⟩)
    · exact ⟨items, member, .inl found⟩
    · exact ⟨items, member, .inr (.inl found)⟩
    · exact ⟨items, member, .inr (.inr found)⟩
  · rintro ⟨items, member, found | found | found⟩
    · exact .inl (.inl ⟨items, member, found⟩)
    · exact .inl (.inr ⟨items, member, found⟩)
    · exact .inr ⟨items, member, found⟩

/-! ## The authenticators -/

theorem development_twoOutcomes (headers : Headers) :
    TwoOutcomes (DevelopmentAuthenticator.Listed headers) (DevelopmentAuthenticator.authenticate headers) ↔
      DevelopmentAuthenticator.Fit headers := by
  unfold DevelopmentAuthenticator.authenticate DevelopmentAuthenticator.Fit
  split
  next missing => exact iff_of_true trivial (by rw [← or_assoc]; exact .inl missing)
  next present =>
    obtain ⟨someSubject, someTenant⟩ := not_or.mp present
    split
    next unknown =>
      exact iff_of_true trivial (.inr (.inr (.inl (mapM_ofValue?_eq_none.mp unknown))))
    next roles known =>
      have granted : ∀ role, role ∈ roles ↔ DevelopmentAuthenticator.Listed headers role :=
        mem_mapM_ofValue? known
      have allKnown : ¬ ∃ item ∈ DevelopmentAuthenticator.roleItems headers,
          ∀ role : Role, role.str ≠ item := by
        intro unknown
        exact Option.some_ne_none roles (known.symm.trans (mapM_ofValue?_eq_none.mpr unknown))
      rw [twoOutcomes_validate granted, or_iff_right someSubject, or_iff_right someTenant,
        or_iff_right allKnown]

theorem principalFromClaims_twoOutcomes (claims : Claims) :
    TwoOutcomes (Listed claims) (OIDCAuthenticator.principalFromClaims claims) ↔ claims.Fit := by
  have isString (value : Option ClaimValue) (text : Str) :
      value.bind asString = some text ↔ value = some (.str text) := by
    cases value with
    | none => simp
    | some value => cases value <;> simp [asString]
  have granted : ∀ role, role ∈ (OIDCAuthenticator.roleValues claims).filterMap Role.ofValue? ↔
      Listed claims role := by
    intro role
    rw [← mem_roleValues]
    simp
  unfold OIDCAuthenticator.principalFromClaims Claims.Fit
  split
  next subject tenantId isSubject isTenant =>
    rw [twoOutcomes_validate granted]
    rw [isString] at isSubject isTenant
    simp [isSubject, isTenant]
  next notStrings =>
    refine iff_of_true trivial fun subject tenantId isSubject isTenant => ?_
    exact absurd ((isString _ _).mpr isTenant) (notStrings subject tenantId ((isString _ _).mpr isSubject))

section OIDC

variable {Key : Type} {authenticator : OIDCAuthenticator Key} {case_ : LowerCase} {headers : Headers}

theorem bearerToken_error {failure : AuthFailure}
    (rejected : OIDCAuthenticator.bearerToken case_ headers = .error failure) :
    ∃ message, failure = .authenticationError message := by
  unfold OIDCAuthenticator.bearerToken at rejected
  simp only at rejected
  split at rejected
  · cases rejected
    exact ⟨_, rfl⟩
  · cases rejected

/-- There is no bearer token, or the library ends on it in one way. -/
theorem presentedClaims_cases (authenticator : OIDCAuthenticator Key) (case_ : LowerCase)
    (headers : Headers) :
    ((∃ message, authenticator.presentedClaims case_ headers = .error (.authenticationError message)) ∧
      ∀ outcome, ¬ authenticator.Verifies case_ headers outcome) ∨
    ∃ outcome, authenticator.presentedClaims case_ headers =
        outcome.mapError OIDCAuthenticator.handled ∧
      ∀ outcome', authenticator.Verifies case_ headers outcome' ↔ outcome = outcome' := by
  unfold OIDCAuthenticator.presentedClaims OIDCAuthenticator.Verifies
  cases bearer : OIDCAuthenticator.bearerToken case_ headers with
  | error failure =>
    obtain ⟨message, rfl⟩ := bearerToken_error bearer
    exact .inl ⟨⟨message, rfl⟩, by simp⟩
  | ok token => exact .inr ⟨authenticator.verify token, rfl, by simp⟩

theorem oidc_twoOutcomes (authenticator : OIDCAuthenticator Key) (case_ : LowerCase) (headers : Headers) :
    TwoOutcomes (authenticator.Listed case_ headers) (authenticator.authenticate case_ headers) ↔
      authenticator.Fit case_ headers := by
  unfold OIDCAuthenticator.authenticate OIDCAuthenticator.Listed OIDCAuthenticator.Fit
  obtain ⟨⟨message, presented⟩, verifies⟩ | ⟨outcome, presented, verifies⟩ :=
    presentedClaims_cases authenticator case_ headers
  · rw [presented]
    exact iff_of_true trivial ⟨fun _ => verifies _, fun _ accepted => absurd accepted (verifies _)⟩
  · simp only [presented, verifies]
    cases outcome with
    | ok claims =>
      simp only [Except.mapError, Except.bind, reduceCtorEq, not_false_eq_true, implies_true, true_and,
        Except.ok.injEq, exists_eq_left', forall_eq']
      exact principalFromClaims_twoOutcomes claims
    | error failure =>
      cases failure with
      | other errorType => exact iff_of_false id fun fit => fit.1 errorType rfl
      | _ => exact iff_of_true trivial ⟨nofun, nofun⟩

end OIDC

/-- Both authenticators have only the two outcomes exactly where the JWT library raises nothing
    unexpected and the last check, of the fields of the principal, passes: where no subject or tenant
    that gets that far is empty, longer than 255 characters or with a lone surrogate. -/
theorem two_outcomes_iff {Key : Type} (authenticator : OIDCAuthenticator Key) (case_ : LowerCase)
    (headers : Headers) :
    (TwoOutcomes (DevelopmentAuthenticator.Listed headers)
        (DevelopmentAuthenticator.authenticate headers) ↔ DevelopmentAuthenticator.Fit headers) ∧
      (TwoOutcomes (authenticator.Listed case_ headers) (authenticator.authenticate case_ headers) ↔
        authenticator.Fit case_ headers) :=
  ⟨development_twoOutcomes headers, oidc_twoOutcomes authenticator case_ headers⟩

/-- A subject of 256 characters. -/
def longSubject : Headers
  | "x-actor-id" => some (List.replicate 256 (.char 'a'))
  | "x-tenant-id" => some (.ofString "tenant-northstar")
  | _ => none

def bearerHeaders : Headers
  | "authorization" => some (.ofString "Bearer token")
  | _ => none

/-- An authenticator whose library ends on every token like this. -/
def issuing (outcome : Except TokenFailure Claims) : OIDCAuthenticator Unit where
  issuer := "https://identity.example.com/"
  audience := "supplier-assurance-api"
  jwksUrl := "https://identity.example.com/.well-known/jwks.json"
  algorithm := "RS256"
  library := {
    getSigningKeyFromJwt := fun _ => .ok ()
    decode := fun _ _ _ _ _ => outcome
  }
  required := by decide

/-- The claims of an analyst without a tenant. -/
def tenantless : Claims :=
  [(.ofString "sub", .str (.ofString "analyst@example.com")), (.ofString "tenant_id", .str [])]

/-- The subject is U+D800. -/
def surrogateSubject : Claims :=
  [(.ofString "sub", .str [.surrogate 0]), (.ofString "tenant_id", .str (.ofString "tenant-northstar"))]

/-- The connection to the JWKS endpoint is reset while the keys are read. -/
def unreachable : OIDCAuthenticator Unit :=
  { issuing (.ok []) with
    library := {
      getSigningKeyFromJwt := fun _ => .error (.other "ConnectionResetError")
      decode := fun _ _ _ _ _ => .ok [] } }

/-- Other errors leave both authenticators. -/
theorem error_escapes :
    ¬ TwoOutcomes (DevelopmentAuthenticator.Listed longSubject)
        (DevelopmentAuthenticator.authenticate longSubject) ∧
      ¬ TwoOutcomes ((issuing (.ok tenantless)).Listed .ascii bearerHeaders)
        ((issuing (.ok tenantless)).authenticate .ascii bearerHeaders) ∧
      ¬ TwoOutcomes ((issuing (.ok surrogateSubject)).Listed .ascii bearerHeaders)
        ((issuing (.ok surrogateSubject)).authenticate .ascii bearerHeaders) ∧
      ¬ TwoOutcomes (unreachable.Listed .ascii bearerHeaders)
        (unreachable.authenticate .ascii bearerHeaders) := by
  have development : DevelopmentAuthenticator.authenticate longSubject = .error .validationError := by
    decide +kernel
  have empty : (issuing (.ok tenantless)).authenticate .ascii bearerHeaders =
      .error .validationError := by decide +kernel
  have surrogate : (issuing (.ok surrogateSubject)).authenticate .ascii bearerHeaders =
      .error .validationError := by decide +kernel
  have reset : unreachable.authenticate .ascii bearerHeaders =
      .error (.unhandled "ConnectionResetError") := by decide +kernel
  rw [development, empty, surrogate, reset]
  exact ⟨id, id, id, id⟩

end Identity

end SupplierAssurance
