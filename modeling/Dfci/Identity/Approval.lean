import Dfci.Identity.Enroll
import Dfci.Identity.TokenList

/-! # Who approved an identity packet

A packet is applied in the name of a signer who may change the key, or of the local user who was asked. -/

namespace Dfci

open ByteFields

def Packet.namedIdentity (data : Packet) : Option Identity :=
  varIdentityToDfciIdentity (byteAt data.bytes (data.varIdentity.getD 0))

def Packet.signerFrom (p : Platform) (certs : CertStore) (data : Packet) (signedLength : Nat) :
    Option Identity :=
  AuthState.signedBy p certs (data.bytes.take signedLength) (data.certificateAt signedLength)

/-- The record of a packet that passed `ValidateAndAuthenticatePendingProvisionData`. -/
def Packet.authenticated (data : Packet) (identity : Identity) (token : AuthToken) (confirm : Bool) :
    Packet :=
  { data with
    dfciIdentity := some identity
    authToken := token
    userConfirmationRequired := confirm
    statusCode := .success
    state := .dataAuthenticated }

inductive UnapprovedToken (p : Platform) (m : Machine) (data : Packet) (identity : Identity)
    (signedLength : Nat) (permMask : Mask) : AuthToken → List TokenMapping → AuthState → Prop
  | unsigned
      (none : ∀ signer, data.signerFrom p m.certs signedLength = some signer → m.auth.canCreateToken p = false) :
      UnapprovedToken p m data identity signedLength permMask data.authToken []
        (m.auth.withoutToken (data.signerFrom p m.certs signedLength))
  | signed (signer : Identity) (token : AuthToken) (auth : AuthState)
      (signs : data.signerFrom p m.certs signedLength = some signer)
      (creates : m.auth.canCreateToken p = true)
      (forbidden : signerMayProvision m.permissions.store identity data permMask signer = false) :
      UnapprovedToken p m data identity signedLength permMask token [⟨token, signer⟩] auth

/-- What `ValidateAndAuthenticatePendingProvisionData` can do, with the token it creates. -/
inductive Validation (p : Platform) (m : Machine) (data : Packet) :
    EfiStatus × AuthState × Packet → Prop
  | refused (code : Nat) (auth : AuthState) (record : Packet) (minted : List TokenMapping)
      (mints : m.auth.Mints minted auth) (held : AuthState.Held minted record.authToken)
      (buffer : minted = [] → record.authToken = data.authToken) (same : record.SameRequest data)
      (settled : record.state.isSettled = true) (reported : record.statusCode.isError = true) :
      Validation p m data (.error code, auth, record)
  | signed (identity : Identity) (signedLength : Nat) (permMask : Mask) (signer : Identity) (token : AuthToken)
      (auth : AuthState) (names : data.namedIdentity = some identity)
      (checks : checkPendingProvisionData p m identity { data with dfciIdentity := some identity } =
        .ok (signedLength, permMask))
      (signs : data.signerFrom p m.certs signedLength = some signer)
      (allowed : signerMayProvision m.permissions.store identity data permMask signer = true)
      (mints : m.auth.Mints [⟨token, signer⟩] auth) (creates : m.auth.canCreateToken p = true) :
      Validation p m data (.success, auth, data.authenticated identity token false)
  | asks (identity : Identity) (signedLength : Nat) (permMask : Mask) (token : AuthToken) (auth : AuthState)
      (minted : List TokenMapping) (names : data.namedIdentity = some identity)
      (checks : checkPendingProvisionData p m identity { data with dfciIdentity := some identity } =
        .ok (signedLength, permMask))
      (permits : permMask.has .local = true) (mints : m.auth.Mints minted auth)
      (origin : UnapprovedToken p m data identity signedLength permMask token minted auth) :
      Validation p m data (.success, auth, data.authenticated identity token true)

section

variable {p : Platform} {m : Machine} {data : Packet}

/-- The local user's part of a validation, whatever became of the signature. -/
theorem Validation.locally {identity : Identity} {signedLength : Nat} {permMask : Mask} {token : AuthToken}
    {auth : AuthState} {minted : List TokenMapping} (names : data.namedIdentity = some identity)
    (checks : checkPendingProvisionData p m identity { data with dfciIdentity := some identity } =
      .ok (signedLength, permMask))
    (mints : m.auth.Mints minted auth)
    (origin : UnapprovedToken p m data identity signedLength permMask token minted auth) :
    Validation p m data
      (localMayProvision auth { data with dfciIdentity := some identity, authToken := token } permMask) := by
  rw [localMayProvision]
  split
  · rename_i permits
    exact .asks identity signedLength permMask token auth minted names checks permits mints origin
  · refine .refused _ auth _ minted mints ?_ ?_ ⟨rfl, rfl, rfl, rfl, rfl⟩ rfl rfl
    · cases origin with
      | unsigned => exact List.forall_mem_nil _
      | signed signer token => exact fun mapping mem => by rw [List.mem_singleton.mp mem]; rfl
    · intro nothing
      cases origin with
      | unsigned => rfl
      | signed => cases nothing

theorem validateAndAuthenticatePendingProvisionData_validation (p : Platform) (m : Machine) (data : Packet) :
    Validation p m data (validateAndAuthenticatePendingProvisionData p m data) := by
  rw [validateAndAuthenticatePendingProvisionData]
  split
  · exact .refused _ _ _ [] (.nothing rfl) (List.forall_mem_nil _) (fun _ => rfl) ⟨rfl, rfl, rfl, rfl, rfl⟩ rfl rfl
  · rename_i identity names
    simp only
    split
    · rename_i failure fails
      obtain ⟨state, status, isError, settled⟩ := failure
      cases status with
      | success => cases isError
      | error code =>
        exact .refused _ _ _ [] (.nothing rfl) (List.forall_mem_nil _) (fun _ => rfl) ⟨rfl, rfl, rfl, rfl, rfl⟩ settled rfl
    · rename_i signedLength permMask checks
      -- the identity is in the record by now, which changes neither the bytes nor the place of the certificate
      have authenticates := AuthState.authWithSignedData_mints p m.auth m.certs
        (({ data with dfciIdentity := some identity } : Packet).bytes.take signedLength)
        (({ data with dfciIdentity := some identity } : Packet).certificateAt signedLength) data.authToken
      generalize authWithSignedData p m.certs m.auth _ _ _ = answer at authenticates ⊢
      obtain ⟨status, token, auth⟩ := answer
      rcases authenticates with ⟨code, isError, same, isAuth, none⟩ | ⟨signer, signs, creates, succeeds, mints⟩
      · cases isError
        cases same
        cases isAuth
        exact .locally names checks (.withoutToken _ _) (.unsigned none)
      · cases succeeds
        have stands : auth.getIdentityProperties token = .ok signer := mints.stands (List.mem_singleton_self _)
        simp only [stands]
        split
        · rename_i allowed
          exact .signed identity signedLength permMask signer token auth names checks signs allowed mints creates
        · rename_i forbidden
          exact .locally names checks mints (.signed signer token auth signs creates (Bool.eq_false_iff.mpr forbidden))

end

/-! ## The local user -/

namespace AuthState

section

variable (p : Platform)

/-- The attempts at a password create at most the token of the one that was right. -/
theorem askForPassword_mints (dialog : Nat → DialogAnswer) (passwordLength : Password → Nat) (remaining attempt : Nat)
    (token : AuthToken) (auth : AuthState) :
    let answer := askForPassword p dialog passwordLength remaining attempt token auth
    (answer.confirmed = false ∧ (answer.token = token ∨ answer.token = authTokenInvalid) ∧
      auth.Mints [] answer.auth) ∨
    (answer.confirmed = true ∧ auth.Mints [⟨answer.token, .local⟩] answer.auth) := by
  induction remaining generalizing attempt token auth with
  | zero => exact .inl ⟨rfl, .inl rfl, .nothing rfl⟩
  | succ remaining ih =>
    simp only [askForPassword]
    cases dialog attempt with
    | error | cancel => exact .inl ⟨rfl, .inl rfl, .nothing rfl⟩
    | other => exact ih (attempt + 1) token auth
    | ok password =>
      have attempted : ∀ (argument : PasswordArgument) (length : Nat), argument ≠ .noPasswordUnsigned →
          let tries := auth.authWithPW p argument length
          let answer := if tries.2.1 = authTokenInvalid then
              askForPassword p dialog passwordLength remaining (attempt + 1) tries.2.1 tries.2.2
            else ⟨true, tries.2.1, tries.2.2⟩
          (answer.confirmed = false ∧ (answer.token = token ∨ answer.token = authTokenInvalid) ∧
            auth.Mints [] answer.auth) ∨
          (answer.confirmed = true ∧ auth.Mints [⟨answer.token, .local⟩] answer.auth) := by
        intro argument length isLocal
        have mints := authWithPW_mints p auth argument length
        rw [if_neg isLocal] at mints
        rcases mints with ⟨_, invalid, nothing⟩ | ⟨_, mints⟩
        · simp only [if_pos invalid]
          rcases ih (attempt + 1) (auth.authWithPW p argument length).2.1
            (auth.authWithPW p argument length).2.2 with ⟨refused, kept, rest⟩ | ⟨confirmed, rest⟩
          · exact .inl ⟨refused, .inr (kept.elim (fun same => same.trans invalid) id), nothing.trans rest⟩
          · exact .inr ⟨confirmed, nothing.trans rest⟩
        · simp only [if_neg (mints.valid _ (List.mem_singleton_self _))]
          exact .inr ⟨trivial, mints⟩
      cases password with
      | none => exact attempted .null 0 (by simp)
      | some text => exact attempted (.buffer text) (passwordLength text) (by simp)

structure UserAsked (p : Platform) (trustedCertSize : Nat) (auth : AuthState)
    (answer : EfiStatus × AuthToken × AuthState) (minted : List TokenMapping) : Prop where
  mints : auth.Mints minted answer.2.2
  isLocal : ∀ mapping ∈ minted, mapping.identity = .local
  agreed : answer.1 = .success → ⟨answer.2.1, .local⟩ ∈ minted
  buffer : answer.2.1 = authTokenInvalid ∨ ⟨answer.2.1, .local⟩ ∈ minted
  held : (trustedCertSize = 0 ∨ auth.adminPasswordSet.getD p.passwordStoreIsPasswordSet = true ∨
    canCreateToken p auth = false) → Held minted answer.2.1

theorem authWithPW_null_success_iff {auth : AuthState} : (auth.authWithPW p .null 0).1 = .success ↔
      auth.adminPasswordSet.getD p.passwordStoreIsPasswordSet = false ∧ canCreateToken p auth = true := by
  have creates := createAuthTokenWithMapping_mints p
    { auth with adminPasswordSet := some (auth.adminPasswordSet.getD p.passwordStoreIsPasswordSet) }
    (if PasswordArgument.null = .noPasswordUnsigned then Identity.unsignedLocal else .local)
  simp only [authWithPW, approves]
  generalize auth.adminPasswordSet.getD p.passwordStoreIsPasswordSet = passwordSet at creates ⊢
  cases passwordSet with
  | true => simp
  | false =>
    simp only [Bool.not_false, Nat.lt_one_iff, decide_true, Bool.and_self, if_true, true_and]
    rcases creates with ⟨cannot, invalid, _⟩ | ⟨can, mints⟩
    · rw [if_pos invalid]
      exact ⟨(by simp), fun can => absurd (cannot.symm.trans can) (by simp)⟩
    · rw [if_neg (mints.valid _ (List.mem_singleton_self _))]
      exact ⟨fun _ => can, fun _ => rfl⟩

/-- The attempts at a password, after the first token of the local user or none. -/
theorem UserAsked.ofAttempts {trustedCertSize : Nat} {auth middle : AuthState} {token : AuthToken}
    {first : List TokenMapping} (mints : auth.Mints first middle)
    (origin : (token = authTokenInvalid ∧ first = []) ∨ (first = [⟨token, .local⟩] ∧ trustedCertSize ≠ 0 ∧
      auth.adminPasswordSet.getD p.passwordStoreIsPasswordSet = false ∧ canCreateToken p auth = true))
    (dialog : Nat → DialogAnswer) (passwordLength : Password → Nat) :
    let answer := askForPassword p dialog passwordLength 3 0 token middle
    ∃ minted, UserAsked p trustedCertSize auth
      (if answer.confirmed then .success else .accessDenied, answer.token, answer.auth) minted := by
  have firstLocal : ∀ mapping ∈ first, mapping.identity = .local := by
    rcases origin with ⟨_, rfl⟩ | ⟨rfl, _⟩
    · simp
    · exact fun mapping mem => by rw [List.mem_singleton.mp mem]
  have lost : (trustedCertSize = 0 ∨ auth.adminPasswordSet.getD p.passwordStoreIsPasswordSet = true ∨
      canCreateToken p auth = false) → first = [] := by
    rcases origin with ⟨_, nothing⟩ | ⟨_, enroll, noPassword, creates⟩
    · exact fun _ => nothing
    · simp [enroll, noPassword, creates]
  rcases askForPassword_mints p dialog passwordLength 3 0 token middle with
    ⟨refused, kept, nothing⟩ | ⟨confirmed, more⟩
  · refine ⟨first ++ [], mints.trans nothing, ?_, by simp [refused], ?_, ?_⟩
    · simpa using firstLocal
    · rw [List.append_nil]
      rcases origin with ⟨invalid, _⟩ | ⟨rfl, _⟩
      · exact .inl (kept.elim (fun same => same.trans invalid) id)
      · rcases kept with same | invalid
        · exact .inr (by simp [same])
        · exact .inl invalid
    · intro condition
      rw [lost condition]
      exact List.forall_mem_nil _
  · refine ⟨first ++ [⟨_, .local⟩], mints.trans more, ?_, fun _ => by simp, .inr (by simp), ?_⟩
    · intro mapping mem
      rcases List.mem_append.mp mem with inFirst | isLast
      · exact firstLocal mapping inFirst
      · rw [List.mem_singleton.mp isLast]
    · intro condition mapping mem
      rw [lost condition] at mem
      rw [List.mem_singleton.mp mem]

theorem localGetAnswerFromUser_asked (ui : UserInterface) (trustedCert : List Byte) (trustedCertSize : Nat)
    (token : AuthToken) (auth : AuthState) (available : ui.available = true) :
    ∃ minted, UserAsked p trustedCertSize auth
      (localGetAnswerFromUser p ui trustedCert trustedCertSize token auth) minted := by
  simp only [localGetAnswerFromUser, available, Bool.not_true, Bool.false_eq_true, if_false]
  rcases authWithPW_mints p auth .null 0 with ⟨fails, invalid, nothing⟩ | ⟨succeeds, mints⟩
  · by_cases violation : (auth.authWithPW p .null 0).1 = .securityViolation
    · -- there is a password, and no token yet
      rw [if_neg (by simp [violation]), decide_eq_true fails]
      simp only [uiUnenrollRequest, uiEnrollRequest, if_true]
      split
      · exact UserAsked.ofAttempts p nothing (.inl ⟨invalid, rfl⟩) _ _
      · exact UserAsked.ofAttempts p nothing (.inl ⟨invalid, rfl⟩) _ _
    · rw [if_pos ⟨fails, violation⟩]
      exact ⟨[], nothing, (by simp), (by simp), .inl invalid, fun _ => List.forall_mem_nil _⟩
  · rw [if_neg (by simp [succeeds]), decide_eq_false (by simp [succeeds])]
    rw [if_neg (by simp)] at mints
    simp only [uiUnenrollRequest, uiEnrollRequest, Bool.false_eq_true, if_false]
    split
    · -- the message box, which leaves the first token in the buffer
      refine ⟨[⟨(auth.authWithPW p .null 0).2.1, .local⟩], ?_⟩
      have only : ∀ mapping ∈ [(⟨(auth.authWithPW p .null 0).2.1, .local⟩ : TokenMapping)],
          mapping.identity = .local ∧ mapping.token = (auth.authWithPW p .null 0).2.1 := by
        intro mapping mem
        rw [List.mem_singleton.mp mem]
        exact ⟨rfl, rfl⟩
      split
      · exact ⟨mints, fun mapping mem => (only mapping mem).1, fun _ => List.mem_singleton_self _,
          .inr (List.mem_singleton_self _), fun _ mapping mem => (only mapping mem).2⟩
      · exact ⟨mints, fun mapping mem => (only mapping mem).1, fun _ => List.mem_singleton_self _,
          .inr (List.mem_singleton_self _), fun _ mapping mem => (only mapping mem).2⟩
    · rename_i enroll
      obtain ⟨noPassword, creates⟩ := (authWithPW_null_success_iff p).mp succeeds
      exact UserAsked.ofAttempts p mints (.inr ⟨rfl, enroll, noPassword, creates⟩) _ _

end

end AuthState

/-! ## The steps of a packet -/

structure AsksUser (p : Platform) (m : Machine) (data : Packet) (identity : Identity)
    (signedLength : Nat) (permMask : Mask) : Prop where
  present : data.state = .dataPresent
  valid : validateIdentityPacket data = .success
  names : data.namedIdentity = some identity
  checks : checkPendingProvisionData p m identity { data with dfciIdentity := some identity } =
    .ok (signedLength, permMask)
  permits : permMask.has .local = true
  unapproved : ∀ signer, data.signerFrom p m.certs signedLength = some signer →
    m.auth.canCreateToken p = true →
    signerMayProvision m.permissions.store identity data permMask signer = false

/-- A token is created before the one that the user's answer puts into the packet's record: that of a signer who may
not change the key, or, for a certificate, the one that tells that there is no password. -/
def ForgetsToken (p : Platform) (m : Machine) (data : Packet) : Prop :=
  ∃ identity signedLength permMask, AsksUser p m data identity signedLength permMask ∧
    let signer := data.signerFrom p m.certs signedLength
    ((signer.isSome = true ∧ m.auth.canCreateToken p = true) ∨
      (data.payloadSize ≠ 0 ∧ m.auth.adminPasswordSet.getD p.passwordStoreIsPasswordSet = false ∧
        (m.auth.withoutToken signer).canCreateToken p = true))

inductive Approval (p : Platform) (m : Machine) (data : Packet) (identity : Identity) :
    Identity → Prop
  | signer (signedLength : Nat) (permMask : Mask) (signer : Identity)
      (checks : checkPendingProvisionData p m identity { data with dfciIdentity := some identity } =
        .ok (signedLength, permMask))
      (signs : data.signerFrom p m.certs signedLength = some signer)
      (allowed : signerMayProvision m.permissions.store identity data permMask signer = true) :
      Approval p m data identity signer
  | localUser (signedLength : Nat) (permMask : Mask)
      (checks : checkPendingProvisionData p m identity { data with dfciIdentity := some identity } =
        .ok (signedLength, permMask))
      (permits : permMask.has .local = true) :
      Approval p m data identity .local

theorem Approval.passed {p : Platform} {m : Machine} {data : Packet} {identity approver : Identity}
    (approval : Approval p m data identity approver) :
    ∃ permMask, PassedChecks m identity { data with dfciIdentity := some identity } permMask := by
  cases approval with
  | signer _ permMask _ checks | localUser _ permMask checks =>
    exact ⟨permMask, (checkPendingProvisionData_checks checks).toPassedChecks⟩

/-- What the steps of a packet can do before `CLEANUP`: stop, with nothing changed but the token list, or apply the
packet with a token of the one who approved it. -/
inductive IdentityOutcome (p : Platform) (m : Machine) (data : Packet) :
    List TokenMapping → IdentityApplied → Prop
  | stopped (status : EfiStatus) (auth : AuthState) (record : Packet) (minted : List TokenMapping)
      (mints : m.auth.Mints minted auth)
      (buffer : record.authToken = data.authToken ∨ record.authToken = authTokenInvalid ∨
        ∃ identity, ⟨record.authToken, identity⟩ ∈ minted)
      (held : ¬ ForgetsToken p m data → AuthState.Held minted record.authToken)
      (unapplied : status = .success → record.state = .dataDelayedProcessing) (same : record.SameRequest data) :
      IdentityOutcome p m data minted ⟨status, { m with auth := auth }, record⟩
  | approved (identity approver : Identity) (auth : AuthState) (record : Packet) (minted : List TokenMapping)
      (present : data.state = .dataPresent) (valid : validateIdentityPacket data = .success)
      (names : data.namedIdentity = some identity) (approval : Approval p m data identity approver)
      (mints : m.auth.Mints minted auth) (buffer : ⟨record.authToken, approver⟩ ∈ minted)
      (held : ¬ ForgetsToken p m data → AuthState.Held minted record.authToken)
      (same : record.SameRequest data) (isIdentity : record.dfciIdentity = some identity) :
      IdentityOutcome p m data minted (applyApproved p { m with auth := auth } identity record)

theorem AuthState.Held.singleton (token : AuthToken) (identity : Identity) : AuthState.Held [⟨token, identity⟩] token :=
  fun mapping mem => by rw [List.mem_singleton.mp mem]

section

variable {p : Platform} {m : Machine} {data : Packet}

section

variable {identity : Identity} {signedLength : Nat} {permMask : Mask} {token : AuthToken}
  {minted : List TokenMapping} {auth : AuthState}
  (origin : UnapprovedToken p m data identity signedLength permMask token minted auth)
include origin

theorem UnapprovedToken.held :
    AuthState.Held minted token ∧ (token = data.authToken ∨ ∃ signer, ⟨token, signer⟩ ∈ minted) := by
  cases origin with
  | unsigned => exact ⟨List.forall_mem_nil _, .inl rfl⟩
  | signed signer => exact ⟨.singleton token signer, .inr ⟨signer, List.mem_singleton_self _⟩⟩

theorem UnapprovedToken.unapproved : ∀ signer, data.signerFrom p m.certs signedLength = some signer →
      m.auth.canCreateToken p = true →
      signerMayProvision m.permissions.store identity data permMask signer = false := by
  intro signer signs creates
  cases origin with
  | unsigned none => simp [none signer signs] at creates
  | signed other _ _ isOther _ forbidden =>
    cases isOther.symm.trans signs
    exact forbidden

end

/-- Asking the user loses no token unless one was there before. -/
theorem UnapprovedToken.asked {identity : Identity} {signedLength : Nat} {permMask : Mask} {token : AuthToken}
    {minted more : List TokenMapping} {auth : AuthState} {answer : EfiStatus × AuthToken × AuthState}
    (origin : UnapprovedToken p m data identity signedLength permMask token minted auth)
    (asks : AsksUser p m data identity signedLength permMask)
    (asked : AuthState.UserAsked p data.payloadSize auth answer more)
    (remembers : ¬ ForgetsToken p m data) : AuthState.Held (minted ++ more) answer.2.1 := by
  cases origin with
  | unsigned none =>
    apply asked.held
    by_contra loses
    simp only [not_or, Bool.not_eq_true, Bool.not_eq_false] at loses
    have same : (m.auth.withoutToken (data.signerFrom p m.certs signedLength)).adminPasswordSet =
        m.auth.adminPasswordSet := by
      rw [AuthState.withoutToken]
      split <;> rfl
    rw [same] at loses
    exact remembers ⟨identity, signedLength, permMask, asks, .inr loses⟩
  | signed signer _ _ signs creates =>
    exact absurd ⟨identity, signedLength, permMask, asks, .inl ⟨by simp [signs], creates⟩⟩ remembers

theorem applyApproved_authToken (p : Platform) (m : Machine) (identity : Identity)
    (record : Packet) : (applyApproved p m identity record).data.authToken = record.authToken := by
  simp only [applyApproved, applyProvisionData]
  repeat' split
  all_goals rfl

theorem approve_authenticated (p : Platform) (ui : UserInterface) (auth : AuthState) (data : Packet)
    (identity : Identity) (token : AuthToken) : approve p ui auth (data.authenticated identity token true) =
      match localGetAnswerFromUser p ui data.payloadBytes data.payloadSize token auth with
      | (.success, token, auth) =>
        (.success, auth,
          { data.authenticated identity token true with resetRequired := true, state := .dataUserApproved })
      | (.error code, token, auth) =>
        (.error code, auth,
          if EfiStatus.error code = .notReady then
            (data.authenticated identity token true).fail .dataSystemError .notReady
          else
            (data.authenticated identity token true).fail .dataUserRejected .aborted) := rfl

def afterAnswer (p : Platform) (m : Machine) (data : Packet) (identity : Identity)
    (answer : EfiStatus × AuthToken × AuthState) : IdentityApplied :=
  match answer with
  | (.success, token, auth) =>
    applyApproved p { m with auth := auth } identity
      { data.authenticated identity token true with resetRequired := true, state := .dataUserApproved }
  | (.error code, token, auth) =>
    ⟨.error code, { m with auth := auth },
      if EfiStatus.error code = .notReady then
        (data.authenticated identity token true).fail .dataSystemError .notReady
      else
        (data.authenticated identity token true).fail .dataUserRejected .aborted⟩

theorem IdentityOutcome.asked {identity : Identity} {signedLength : Nat} {permMask : Mask} {token : AuthToken}
    {minted more : List TokenMapping} {auth : AuthState} {answer : EfiStatus × AuthToken × AuthState}
    (asks : AsksUser p m data identity signedLength permMask) (mints : m.auth.Mints minted auth)
    (origin : UnapprovedToken p m data identity signedLength permMask token minted auth)
    (asked : AuthState.UserAsked p data.payloadSize auth answer more) :
    IdentityOutcome p m data (minted ++ more) (afterAnswer p m data identity answer) ∧
      (afterAnswer p m data identity answer).data.authToken = answer.2.1 := by
  have held := origin.asked asks asked
  obtain ⟨status, answered, after⟩ := answer
  have all := mints.trans asked.mints
  cases status with
  | error code =>
    simp only [afterAnswer]
    refine ⟨.stopped _ after _ (minted ++ more) all ?_ ?_ (by simp) ?_, by split <;> rfl⟩
    · have inAll : answered = authTokenInvalid ∨ ⟨answered, .local⟩ ∈ minted ++ more :=
        asked.buffer.imp id (List.mem_append_right _)
      split <;> exact .inr (inAll.imp id fun mem => ⟨.local, mem⟩)
    · intro remembers
      split <;> exact held remembers
    · split <;> exact ⟨rfl, rfl, rfl, rfl, rfl⟩
  | success =>
    refine ⟨.approved identity .local after _ (minted ++ more) asks.present asks.valid asks.names
      (.localUser signedLength permMask asks.checks asks.permits) all
      (List.mem_append_right _ (asked.agreed rfl)) held ⟨rfl, rfl, rfl, rfl, rfl⟩ rfl, ?_⟩
    exact applyApproved_authToken p _ identity _

theorem applyIdentitySteps_asks (p : Platform) (ui : UserInterface) (m : Machine) (data : Packet)
    {identity : Identity} {token : AuthToken} {auth : AuthState} (present : data.state = .dataPresent)
    (valid : validateIdentityPacket data = .success)
    (validates : validateAndAuthenticatePendingProvisionData p m data =
      (.success, auth, data.authenticated identity token true)) (available : ui.available = true) :
    applyIdentitySteps p ui m data = afterAnswer p m data identity
      (localGetAnswerFromUser p ui data.payloadBytes data.payloadSize token auth) := by
  simp only [applyIdentitySteps, present, ne_eq, not_true, if_false, valid, validates, available, Bool.not_true,
    Bool.false_and, Bool.false_eq_true, approve_authenticated, afterAnswer]
  generalize localGetAnswerFromUser p ui data.payloadBytes data.payloadSize token auth = answer
  obtain ⟨status, answered, after⟩ := answer
  cases status <;> rfl

/-- A packet whose signer may do it does not ask the user. -/
theorem applyIdentitySteps_signed (p : Platform) (ui : UserInterface) (m : Machine) (data : Packet)
    {identity : Identity} {token : AuthToken} {auth : AuthState} (present : data.state = .dataPresent)
    (valid : validateIdentityPacket data = .success)
    (validates : validateAndAuthenticatePendingProvisionData p m data =
      (.success, auth, data.authenticated identity token false)) :
    applyIdentitySteps p ui m data = applyApproved p { m with auth := auth } identity
      { data.authenticated identity token false with state := .dataUserApproved } := by
  simp only [applyIdentitySteps, present, ne_eq, not_true, if_false, valid, validates,
    Packet.authenticated, Bool.and_false, Bool.false_eq_true, approve, Bool.not_false, if_true]

theorem applyIdentitySteps_outcome (p : Platform) (ui : UserInterface) (m : Machine) (data : Packet) :
    ∃ minted, IdentityOutcome p m data minted (applyIdentitySteps p ui m data) := by
  by_cases present : data.state = .dataPresent
  · cases valid : validateIdentityPacket data with
    | error code =>
      simp only [applyIdentitySteps, present, ne_eq, not_true, if_false, valid]
      exact ⟨[], .stopped _ m.auth _ [] (.nothing rfl) (.inl rfl) (fun _ => List.forall_mem_nil _) (by simp)
        ⟨rfl, rfl, rfl, rfl, rfl⟩⟩
    | success =>
      have validation := validateAndAuthenticatePendingProvisionData_validation p m data
      generalize validates : validateAndAuthenticatePendingProvisionData p m data = answer at validation
      cases validation with
      | refused code auth record minted mints held buffer same =>
        simp only [applyIdentitySteps, present, ne_eq, not_true, if_false, valid, validates]
        refine ⟨minted, .stopped _ auth record minted mints ?_ (fun _ => held) (by simp) same⟩
        cases minted with
        | nil => exact .inl (buffer rfl)
        | cons mapping rest =>
          have isHead := held mapping List.mem_cons_self
          exact .inr (.inr ⟨mapping.identity, by rw [← isHead]; exact List.mem_cons_self⟩)
      | signed identity signedLength permMask signer token auth names checks signs allowed mints =>
        rw [applyIdentitySteps_signed p ui m data present valid validates]
        exact ⟨_, .approved identity signer auth _ [⟨token, signer⟩] present valid names
          (.signer signedLength permMask signer checks signs allowed) mints (List.mem_singleton_self _)
          (fun _ => .singleton token signer) ⟨rfl, rfl, rfl, rfl, rfl⟩ rfl⟩
      | asks identity signedLength permMask token auth minted names checks permits mints origin =>
        have asks : AsksUser p m data identity signedLength permMask :=
          ⟨present, valid, names, checks, permits, origin.unapproved⟩
        by_cases available : ui.available = true
        · rw [applyIdentitySteps_asks p ui m data present valid validates available]
          obtain ⟨more, asked⟩ := AuthState.localGetAnswerFromUser_asked p ui data.payloadBytes data.payloadSize
            token auth available
          exact ⟨minted ++ more, (IdentityOutcome.asked asks mints origin asked).1⟩
        · simp only [applyIdentitySteps, present, ne_eq, not_true, if_false, valid, validates,
            Packet.authenticated, available, Bool.not_false, Bool.true_and, if_true]
          exact ⟨minted, .stopped _ auth _ minted mints (origin.held.2.imp id .inr) (fun _ => origin.held.1)
            (fun _ => rfl) ⟨rfl, rfl, rfl, rfl, rfl⟩⟩
  · simp only [applyIdentitySteps, ne_eq, present, not_false_eq_true, if_true]
    exact ⟨[], .stopped _ m.auth _ [] (.nothing rfl) (.inl rfl) (fun _ => List.forall_mem_nil _) (by simp) (.refl data)⟩

/-- A packet that gets as far as the user is authenticated with a token that was not approved. -/
theorem AsksUser.validates {identity : Identity} {signedLength : Nat} {permMask : Mask}
    (asks : AsksUser p m data identity signedLength permMask) :
    ∃ token auth minted, validateAndAuthenticatePendingProvisionData p m data =
        (.success, auth, data.authenticated identity token true) ∧ m.auth.Mints minted auth ∧
      UnapprovedToken p m data identity signedLength permMask token minted auth := by
  have names := asks.names
  rw [Packet.namedIdentity] at names
  have authenticates := AuthState.authWithSignedData_mints p m.auth m.certs
    (({ data with dfciIdentity := some identity } : Packet).bytes.take signedLength)
    (({ data with dfciIdentity := some identity } : Packet).certificateAt signedLength) data.authToken
  simp only [validateAndAuthenticatePendingProvisionData, names, asks.checks]
  generalize authWithSignedData p m.certs m.auth _ _ _ = answer at authenticates ⊢
  obtain ⟨status, token, auth⟩ := answer
  rcases authenticates with ⟨code, isError, same, isAuth, none⟩ | ⟨signer, signs, creates, succeeds, mints⟩
  · cases isError
    cases same
    cases isAuth
    refine ⟨data.authToken, _, [], ?_, .withoutToken _ _, .unsigned none⟩
    simp only [localMayProvision, asks.permits, if_true]
    rfl
  · cases succeeds
    have stands : auth.getIdentityProperties token = .ok signer := mints.stands (List.mem_singleton_self _)
    have forbidden := asks.unapproved signer signs creates
    refine ⟨token, auth, _, ?_, mints, .signed signer token auth signs creates forbidden⟩
    have stillForbidden : signerMayProvision m.permissions.store identity
        { data with dfciIdentity := some identity, authToken := token } permMask signer = false := forbidden
    simp only [stands, stillForbidden, Bool.false_eq_true, if_false, localMayProvision, asks.permits, if_true]
    rfl

theorem IdentityApplied.cleanup_kept {applied : IdentityApplied}
    (kept : ∃ auth, applied.machine = { m with auth := auth }) :
    ∃ auth, applied.cleanup.machine = { m with auth := auth } := by
  obtain ⟨auth, kept⟩ := kept
  rw [IdentityApplied.cleanup]
  split
  · exact ⟨auth, kept⟩
  · refine ⟨(auth.disposeAuthToken applied.data.authToken).2.2, ?_⟩
    simp only [kept]

/-- The user does not agree, and the machine is as it was but for the tokens. -/
theorem AsksUser.declined {ui : UserInterface} {identity : Identity} {signedLength : Nat} {permMask : Mask}
    (asks : AsksUser p m data identity signedLength permMask) (declines : ∀ token auth,
      (localGetAnswerFromUser p ui data.payloadBytes data.payloadSize token auth).1 ≠ .success) :
    ∃ auth, (applyNewIdentityPacket p ui m data).machine = { m with auth := auth } := by
  obtain ⟨token, auth, _, validates, _⟩ := asks.validates
  apply IdentityApplied.cleanup_kept
  by_cases available : ui.available = true
  · rw [applyIdentitySteps_asks p ui m data asks.present asks.valid validates available]
    have refused := declines token auth
    generalize localGetAnswerFromUser p ui data.payloadBytes data.payloadSize token auth = answer at refused ⊢
    obtain ⟨status, answered, after⟩ := answer
    cases status with
    | success => exact absurd rfl refused
    | error code => exact ⟨after, rfl⟩
  · simp only [applyIdentitySteps, asks.present, ne_eq, not_true, if_false, asks.valid, validates,
      Packet.authenticated, available, Bool.not_false, Bool.true_and, if_true]
    exact ⟨auth, rfl⟩

end

end Dfci
