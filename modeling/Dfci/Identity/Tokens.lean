import Dfci.Packet

/-! # Authentication tokens

A token is a random number that stands for an identity as long as it is in the map list. -/

namespace Dfci

/-- `DFCI_AUTH_TO_ID_LIST_ENTRY` -/
structure TokenMapping where
  token : AuthToken
  identity : Identity
  deriving DecidableEq

structure AuthState where
  /-- `mAuthIdMapList` -/
  mappings : List TokenMapping
  /-- How many random numbers were drawn. -/
  draws : Nat
  /-- `mAdminPasswordSetState`, with `none` for unknown. -/
  adminPasswordSet : Option Bool
  deriving DecidableEq

/-- The `Password` argument of `AuthWithPW`. -/
inductive PasswordArgument where
  | null
  | noPasswordUnsigned
  | buffer (password : Password)
  deriving DecidableEq

namespace AuthState

/-- The state of the driver after it was loaded, `draws` random numbers into the machine's life. -/
def loaded (draws : Nat) : AuthState := ⟨[], draws, none⟩

def findListEntryByAuthToken (auth : AuthState) (token : AuthToken) : Option TokenMapping :=
  auth.mappings.find? (fun mapping => mapping.token = token)

def addAuthHandleMapping (auth : AuthState) (token : AuthToken) (identity : Identity) : EfiStatus × AuthState :=
  if (auth.findListEntryByAuthToken token).isSome then
    (.invalidParameter, auth)
  else
    (.success, { auth with mappings := auth.mappings ++ [⟨token, identity⟩] })

def disposeAllIdentityMappings (auth : AuthState) (mask : Mask) : AuthState :=
  { auth with mappings := auth.mappings.filter fun mapping => !mask.has mapping.identity }

/-- `DisposeAuthToken`: the status, the caller's token and the list. -/
def disposeAuthToken (auth : AuthState) (token : AuthToken) : EfiStatus × AuthToken × AuthState :=
  if (auth.findListEntryByAuthToken token).isSome then
    (.success, authTokenInvalid,
      { auth with mappings := auth.mappings.eraseP fun mapping => mapping.token = token })
  else
    (.notFound, token, auth)

def getIdentityProperties (auth : AuthState) (token : AuthToken) : Except EfiStatus Identity :=
  match auth.findListEntryByAuthToken token with
  | none => .error .notFound
  | some mapping => .ok mapping.identity

def createRandomAuthToken (p : Platform) (auth : AuthState) : AuthToken × AuthState :=
  let drawn := { auth with draws := auth.draws + 1 }
  match p.getRng auth.draws with
  | .error _ => (authTokenInvalid, drawn)
  | .ok random => (random, drawn)

/-- `CreateAuthTokenWithMapping`; a random number that is in use already is an error as well. -/
def createAuthTokenWithMapping (p : Platform) (auth : AuthState) (identity : Identity) : AuthToken × AuthState :=
  let (random, auth) := createRandomAuthToken p auth
  if random = authTokenInvalid then
    (authTokenInvalid, auth)
  else
    let (status, auth) := auth.addAuthHandleMapping random identity
    if status.isError then (authTokenInvalid, auth) else (random, auth)

/-- The tests of `AuthWithPW`. Without a password in the store only a caller who offers none is approved. -/
def approves (p : Platform) (passwordSet : Bool) (passwordLength : Nat) : PasswordArgument → Bool
  | .null | .noPasswordUnsigned => !passwordSet && passwordLength < 1
  | .buffer text => passwordSet && !(passwordLength < 1) && p.passwordStoreAuthenticatePassword text

/-- `AuthWithPW`, with the token it leaves in the caller's buffer. -/
def authWithPW (p : Platform) (auth : AuthState) (password : PasswordArgument) (passwordLength : Nat) :
    EfiStatus × AuthToken × AuthState :=
  let identity := if password = .noPasswordUnsigned then Identity.unsignedLocal else .local
  let passwordSet := auth.adminPasswordSet.getD p.passwordStoreIsPasswordSet
  let auth := { auth with adminPasswordSet := some passwordSet }
  if approves p passwordSet passwordLength password then
    let (token, auth) := createAuthTokenWithMapping p auth identity
    if token = authTokenInvalid then (.deviceError, authTokenInvalid, auth) else (.success, token, auth)
  else
    (.securityViolation, authTokenInvalid, auth)

/-! ## What a token stands for -/

section

variable {p : Platform} {auth : AuthState} {identity : Identity}

theorem getIdentityProperties_eq_ok {token : AuthToken} : auth.getIdentityProperties token = .ok identity ↔
      auth.mappings.find? (fun mapping => mapping.token = token) = some ⟨token, identity⟩ := by
  rw [getIdentityProperties, findListEntryByAuthToken]
  cases found : auth.mappings.find? (fun mapping => mapping.token = token) with
  | none => simp
  | some mapping =>
    have same : mapping.token = token := by simpa using List.find?_some found
    subst same
    cases mapping
    simp

/-- Creating a token either fails and leaves the list as it was, or appends the new token to it. -/
theorem createAuthTokenWithMapping_cases (p : Platform) (auth : AuthState) (identity : Identity) :
    createAuthTokenWithMapping p auth identity = (authTokenInvalid, { auth with draws := auth.draws + 1 }) ∨
    ∃ token, token ≠ authTokenInvalid ∧ (∀ mapping ∈ auth.mappings, mapping.token ≠ token) ∧
      p.getRng auth.draws = .ok token ∧
      createAuthTokenWithMapping p auth identity =
        (token, { auth with mappings := auth.mappings ++ [⟨token, identity⟩], draws := auth.draws + 1 }) := by
  rw [createAuthTokenWithMapping, createRandomAuthToken]
  cases drawn : p.getRng auth.draws with
  | error status =>
    left
    simp
  | ok random =>
    by_cases invalid : random = authTokenInvalid
    · left
      simp [invalid]
    · by_cases used : (auth.mappings.find? fun mapping => mapping.token = random).isSome
      · left
        simp [invalid, addAuthHandleMapping, findListEntryByAuthToken, used]
      · right
        refine ⟨random, invalid, ?_, rfl, ?_⟩
        · simpa using used
        · simp [invalid, addAuthHandleMapping, findListEntryByAuthToken, used]

/-- A token that was created stands for the identity it was created for. -/
theorem createAuthTokenWithMapping_stands {token : AuthToken} {after : AuthState}
    (creates : createAuthTokenWithMapping p auth identity = (token, after)) (valid : token ≠ authTokenInvalid) :
    after.getIdentityProperties token = .ok identity := by
  rcases createAuthTokenWithMapping_cases p auth identity with fails | ⟨random, _, fresh, _, works⟩
  · rw [fails] at creates
    cases creates
    contradiction
  · rw [works] at creates
    cases creates
    rw [getIdentityProperties_eq_ok]
    have absent : auth.mappings.find? (fun mapping => mapping.token = token) = none := by
      simpa using fresh
    simp [List.find?_append, absent]

/-- A token by password stands for the local user, or for unsigned packets. -/
theorem authWithPW_success {after : AuthState} {password : PasswordArgument} {passwordLength : Nat}
    {token : AuthToken} (authenticates : auth.authWithPW p password passwordLength = (.success, token, after)) :
    after.getIdentityProperties token =
      .ok (if password = .noPasswordUnsigned then Identity.unsignedLocal else .local) := by
  simp only [authWithPW] at authenticates
  generalize (if password = .noPasswordUnsigned then Identity.unsignedLocal else .local) = identity at authenticates ⊢
  split at authenticates
  · split at authenticates
    · cases authenticates
    · rename_i valid
      cases authenticates
      exact createAuthTokenWithMapping_stands rfl valid
  · cases authenticates

end

end AuthState

end Dfci
