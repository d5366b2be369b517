import Dfci.Identity.Revocation
import Dfci.System

/-! # The token list over the life of a machine -/

namespace Dfci

namespace AuthState

section

variable {auth : AuthState} (distinct : auth.Distinct) (p : Platform)

include distinct

theorem Distinct.createAuthTokenWithMapping (identity : Identity) :
    (createAuthTokenWithMapping p auth identity).2.Distinct := by
  rcases createAuthTokenWithMapping_mints p auth identity with ⟨_, _, mints⟩ | ⟨_, mints⟩
  · exact distinct.mints mints
  · exact distinct.mints mints

theorem Distinct.authWithPW (password : PasswordArgument) (passwordLength : Nat) :
    (auth.authWithPW p password passwordLength).2.2.Distinct := by
  rcases authWithPW_mints p auth password passwordLength with ⟨_, _, mints⟩ | ⟨_, mints⟩
  · exact distinct.mints mints
  · exact distinct.mints mints

theorem Distinct.authWithSignedData (certs : CertStore) (signedData signature : List Byte) (token : AuthToken) :
    (Dfci.authWithSignedData p certs auth signedData signature token).2.2.Distinct := by
  rcases authWithSignedData_mints p auth certs signedData signature token with
    ⟨_, _, _, isAuth, _⟩ | ⟨_, _, _, _, mints⟩
  · rw [isAuth]
    exact distinct.mints (.withoutToken auth _)
  · exact distinct.mints mints

theorem Distinct.cleanup (token : AuthToken) : (auth.cleanup token).Distinct := by
  rw [AuthState.cleanup]
  split
  · exact distinct
  · exact distinct.disposeAuthToken token

omit p in
theorem Distinct.cleanupToken (data : Packet) : (Dfci.cleanupToken auth data).1.Distinct := by
  rw [Dfci.cleanupToken]
  split
  · exact distinct
  · exact distinct.disposeAuthToken data.authToken

end

end AuthState

section

variable {p : Platform} {m : Machine} (distinct : m.auth.Distinct)

include distinct

theorem applyNewIdentityPacket_distinct (ui : UserInterface) (data : Packet) :
    (applyNewIdentityPacket p ui m data).machine.auth.Distinct := by
  obtain ⟨minted, token, revoked, tokens⟩ := applyNewIdentityPacket_tokens p ui m data
  obtain ⟨auth, mints, left⟩ := tokens.left
  rw [left]
  exact ((distinct.mints mints).disposeAllIdentityMappings revoked).cleanup token

theorem applyNewPermissionsPacket_distinct (data : Packet) :
    (applyNewPermissionsPacket p m.certs m.auth m.permissions data).auth.Distinct := by
  apply AuthState.Distinct.cleanupToken
  have authenticated : (validateAndAuthenticatePermissions p m.certs m.auth data).2.1.Distinct := by
    rw [validateAndAuthenticatePermissions]
    split
    · exact distinct
    · have signed := distinct.authWithSignedData p m.certs data.signedBytes
        (data.certificateAt data.signedDataLength) data.authToken
      generalize authWithSignedData p m.certs m.auth _ _ _ = answer at signed ⊢
      obtain ⟨status, token, auth⟩ := answer
      cases status <;> exact signed
  rw [applyPermissionsSteps]
  split
  · exact distinct
  · split
    · exact distinct
    · generalize validateAndAuthenticatePermissions p m.certs m.auth data = answer at authenticated
      obtain ⟨status, auth, record⟩ := answer
      cases status with
      | error code => exact authenticated
      | success =>
        simp only
        split <;> exact authenticated

theorem applyNewSettingsPacket_distinct (box : MailBox) (data : Packet) :
    (SettingsState.applyNewSettingsPacket p box m.certs m.permissions.store m.auth
      m.settings data).auth.Distinct := by
  apply AuthState.Distinct.cleanupToken
  have authenticated : (validateAndAuthenticateSettings p m.certs m.auth data).2.1.Distinct := by
    have checked : (checkAuthAndGetToken p m.certs m.auth data).2.2.Distinct := by
      rw [checkAuthAndGetToken]
      split
      · exact distinct.authWithPW p .noPasswordUnsigned 0
      · exact distinct.authWithSignedData p m.certs _ _ _
    rw [validateAndAuthenticateSettings]
    generalize checkAuthAndGetToken p m.certs m.auth data = answer at checked
    obtain ⟨status, token, auth⟩ := answer
    cases status <;> exact checked
  split
  · exact distinct
  · split
    · exact distinct
    · rw [SettingsState.applyLoaded]
      generalize validateAndAuthenticateSettings p m.certs m.auth data = answer at authenticated
      obtain ⟨status, auth, record⟩ := answer
      cases status with
      | error code => exact authenticated
      | success =>
        simp only
        split <;> exact authenticated

theorem applyPacket_distinct (ui : UserInterface) (box : MailBox) (data : Packet) :
    (applyPacket p ui box m data).machine.auth.Distinct := by
  cases box with
  | identity | identity2 => exact applyNewIdentityPacket_distinct distinct ui data
  | permissions | permissions2 => exact applyNewPermissionsPacket_distinct distinct data
  | settings => exact applyNewSettingsPacket_distinct distinct .settings data
  | settings2 => exact applyNewSettingsPacket_distinct distinct .settings2 data

theorem clearDfci_distinct (token : AuthToken) : (m.clearDfci p token).2.auth.Distinct := by
  have effect := m.clearDfci_effect p token
  generalize m.clearDfci p token = cleared at effect
  cases effect with
  | refused | permissionsFailed | certsFailed => exact distinct
  | cleared => exact distinct.disposeAllIdentityMappings Mask.keys

end

/-- Committing and restoring leave the tokens alone. -/
theorem lkg_auth (p : Platform) (op : LkgOperation) (box : MailBox) (m : Machine)
    (data : Packet) : (lkg p op box m data).machine.auth = m.auth := by
  have identity : (identityLkgHandler p op m data).machine.auth = m.auth :=
    (identityLkgHandler_frame p op m data).1
  cases box with
  | identity | identity2 => exact identity
  | permissions | permissions2 | settings | settings2 => rfl

namespace Machine

/-- No event makes a token valid twice, or the invalid one valid. -/
theorem step_distinct (p : Platform) (m : Machine) (event : MachineEvent)
    (distinct : m.auth.Distinct) : (m.step p event).auth.Distinct := by
  cases event with
  | boot zeroTouch => exact .loaded m.auth.draws
  | mailboxes early late read =>
    refine Manager.mailboxes_invariant (fun m => m.auth.Distinct) ?_ ?_ early late read distinct
    · intro ui box m data distinct
      exact applyPacket_distinct distinct ui box data
    · intro op box m data distinct
      rw [lkg_auth]
      exact distinct
  | recovery recoveryId =>
    exact clearDfci_distinct (distinct.createAuthTokenWithMapping p recoveryId) _
  | authWithPW password passwordLength => exact distinct.authWithPW p password passwordLength
  | authWithSignedData signedData signature =>
    exact distinct.authWithSignedData p m.certs signedData signature _
  | disposeAuthToken token => exact distinct.disposeAuthToken token
  | setSetting => exact distinct
  | resetSettings token =>
    simp only [step, systemSettingsAccessReset]
    split <;> exact distinct
  | resetPermissions token =>
    simp only [step, resetPermissionsToDefault]
    split <;> exact distinct

theorem run_distinct (p : Platform) (start : Machine) (zeroTouch : ZeroTouch) (events : List MachineEvent) :
    (Runs.run (step p) (start.boot p zeroTouch) events).auth.Distinct :=
  Runs.invariant (step p) (fun m event => step_distinct p m event)
    (AuthState.Distinct.loaded start.auth.draws) events

/-- In every state that follows a boot, the tokens are valid and distinct. There, an identity packet that is applied
revokes the tokens of the identity it changes, and all keys' tokens when it removes the Owner; clearing revokes all
keys' tokens; and neither touches the tokens of others. -/
theorem changes_revoke_tokens (p : Platform) (start : Machine) (zeroTouch : ZeroTouch) (events : List MachineEvent) :
    let m := Runs.run (step p) (start.boot p zeroTouch) events
    m.auth.Distinct ∧
    (∀ ui data, let applied := applyNewIdentityPacket p ui m data
      if applied.status = .success ∧ applied.data.state = .dataComplete then
        ∃ identity revoked, data.namedIdentity = some identity ∧ revoked.has identity = true ∧
          (identity = .signerOwner → data.payloadSize = 0 → revoked = Mask.keys) ∧
          (identity ≠ .signerOwner ∨ data.payloadSize ≠ 0 → revoked = identity.bit) ∧
          RevokesOnly m.auth applied.machine.auth revoked data.authToken
      else
        RevokesOnly m.auth applied.machine.auth Mask.none data.authToken) ∧
    ∀ token, let cleared := m.clearDfci p token
      RevokesOnly m.auth cleared.2.auth (if cleared.1 = .success then Mask.keys else Mask.none)
        authTokenInvalid := by
  have distinct := run_distinct p start zeroTouch events
  generalize Runs.run (step p) (start.boot p zeroTouch) events = m at distinct ⊢
  refine ⟨distinct, ?_, ?_⟩
  · intro ui data
    obtain ⟨minted, token, revoked, tokens⟩ := applyNewIdentityPacket_tokens p ui m data
    have only := tokens.revokesOnly
    simp only
    split
    · rename_i applied
      obtain ⟨identity, names, revokes⟩ := tokens.revokes applied
      refine ⟨identity, revoked, names, ?_, ?_, ?_, only⟩
      · rw [revokes]
        exact revokedBy_self data identity
      · intro owner unenroll
        rw [revokes, revokedBy, if_pos ⟨unenroll, owner⟩]
      · intro other
        rw [revokes, revokedBy, if_neg]
        rintro ⟨unenroll, owner⟩
        exact other.elim (fun differs => differs owner) (fun differs => differs unenroll)
    · rename_i unapplied
      rw [← tokens.spares unapplied]
      exact only
  · intro token
    have effect := m.clearDfci_effect p token
    generalize m.clearDfci p token = cleared at effect
    have unchanged : RevokesOnly m.auth m.auth Mask.none authTokenInvalid :=
      ⟨fun _ identity _ => Mask.none_has identity, fun _ _ _ stands _ => stands⟩
    cases effect with
    | refused | permissionsFailed | certsFailed => exact unchanged
    | cleared => exact RevokesOnly.disposeAllIdentityMappings m.auth Mask.keys authTokenInvalid

end Machine

end Dfci
