import Dfci.Identity.CertFlash
import Dfci.Permission.Lifecycle
import Dfci.Settings.Packet

/-! # The three managers together, and clearing them -/

namespace Dfci

/-- What the identity, permission and settings managers keep in memory and in their variables. -/
structure Machine where
  /-- `mInternalCertStore` and the `_IPCVN` variable. -/
  certs : CertStore
  certFlash : Option Variable
  auth : AuthState
  permissions : PermissionState
  settings : SettingsState
  deriving DecidableEq

namespace Machine

/-- `HasUnenrollPermission`: the right to change the Owner key, or to recover. -/
def hasUnenrollPermission (m : Machine) (token : AuthToken) : Except EfiStatus Bool := do
  let req : WriteRequest := ⟨m.permissions.store, m.auth.getIdentityProperties token⟩
  let groups := m.settings.providers.groups
  if ← req.hasWritePermissions groups ownerKeyId then
    .ok true
  else if ← req.hasWritePermissions groups dfciRecoveryId then
    .ok true
  else
    req.hasWritePermissions groups ztdRecoveryId

/-- `SystemSettingsAccessReset`, which goes on when a setting or the variable cannot be reset. -/
def systemSettingsAccessReset (p : Platform) (token : AuthToken) (m : Machine) : EfiStatus × Machine :=
  match m.hasUnenrollPermission token with
  | .error status => (status, m)
  | .ok false => (.accessDenied, m)
  | .ok true =>
    (.success, { m with settings :=
      { providers := m.settings.providers.resetAllProvidersToDefaultsWithMatchingFlags p SettingFlags.noPrebootUi
        flash := (InternalData.resetInFlash p m.settings.flash).2 } })

/-- `ResetPermissionsToDefault` -/
def resetPermissionsToDefault (p : Platform) (token : AuthToken) (m : Machine) : EfiStatus × Machine :=
  match m.hasUnenrollPermission token with
  | .error status => (status, m)
  | .ok false => (.accessDenied, m)
  | .ok true =>
    let (status, perms) := PermissionState.initAndSave p m.permissions.flash
    (status, { m with permissions := perms })

/-- `ClearDFCI`. It stops at the first manager that cannot be reset. -/
def clearDfci (p : Platform) (token : AuthToken) (m : Machine) : EfiStatus × Machine :=
  if token = authTokenInvalid then
    (.invalidParameter, m)
  else
    match m.systemSettingsAccessReset p token with
    | (.error code, m) => (.error code, m)
    | (.success, m) =>
      match m.resetPermissionsToDefault p token with
      | (.error code, m) => (.error code, m)
      | (.success, m) =>
        let (status, certs, certFlash) :=
          CertStore.initializeProvisionedData p m.certFlash m.certs
        let m := { m with certs := certs, certFlash := certFlash }
        if status.isError then (status, m)
        else (.success, { m with auth := m.auth.disposeAllIdentityMappings Mask.keys })

/-- `DoDfciRecovery`, for the identity whose recovery response was accepted. -/
def doDfciRecovery (p : Platform) (recoveryId : Identity) (m : Machine) : EfiStatus × Machine :=
  let (random, auth) := m.auth.createAuthTokenWithMapping p recoveryId
  clearDfci p random { m with auth := auth }

/-! ## What clearing can do -/

def unenrollIds : List SettingId := [ownerKeyId, dfciRecoveryId, ztdRecoveryId]

theorem hasUnenrollPermission_eq (m : Machine) (token : AuthToken) : m.hasUnenrollPermission token =
      match m.permissions.store with
      | none => .error .notReady
      | some store =>
        match m.auth.getIdentityProperties token with
        | .error status => .error status
        | .ok identity => .ok (unenrollIds.any fun id =>
            PermissionStore.hasWritePermissions m.settings.providers.groups store identity id) := by
  simp only [hasUnenrollPermission, WriteRequest.hasWritePermissions, bind, Except.bind]
  cases m.permissions.store with
  | none => rfl
  | some store =>
    cases m.auth.getIdentityProperties token with
    | error status => rfl
    | ok identity =>
      simp only [unenrollIds, List.any_cons, List.any_nil, Bool.or_false]
      split
      · rename_i owner
        simp [owner]
      · rename_i notOwner
        rw [Bool.not_eq_true] at notOwner
        split
        · rename_i recovery
          simp [recovery]
        · rename_i notRecovery
          rw [Bool.not_eq_true] at notRecovery
          simp [notOwner, notRecovery]

theorem hasUnenrollPermission_ne_error_success (m : Machine) (token : AuthToken) :
    m.hasUnenrollPermission token ≠ .error .success := by
  rw [hasUnenrollPermission_eq, AuthState.getIdentityProperties]
  split
  · simp
  · split
    · rename_i status unknown
      split at unknown <;> cases unknown
      simp
    · simp

/-- The settings after `SystemSettingsAccessReset`. -/
def settingsReset (p : Platform) (m : Machine) : SettingsState where
  providers := m.settings.providers.resetAllProvidersToDefaultsWithMatchingFlags p SettingFlags.noPrebootUi
  flash := (InternalData.resetInFlash p m.settings.flash).2

structure MayClear (m : Machine) (token : AuthToken) : Prop where
  valid : token ≠ authTokenInvalid
  permitted : m.hasUnenrollPermission token = .ok true

/-- What `ClearDFCI` can do: be refused with nothing changed, fail at the permission store or at the certificate store
with what comes before it done, or clear all. -/
inductive ClearEffect (p : Platform) (token : AuthToken) (m : Machine) : EfiStatus × Machine → Prop
  | refused (code : Nat) (denied : ¬ m.MayClear token) : ClearEffect p token m (.error code, m)
  | permissionsFailed (code : Nat) (perms : PermissionState) (may : m.MayClear token)
      (fails : PermissionState.initAndSave p m.permissions.flash = (.error code, perms)) :
      ClearEffect p token m
        (.error code, { m with settings := m.settingsReset p, permissions := perms })
  | certsFailed (code : Nat) (perms : PermissionState) (certs : CertStore) (certFlash : Option Variable)
      (may : m.MayClear token)
      (resets : PermissionState.initAndSave p m.permissions.flash = (.success, perms))
      (fails : CertStore.initializeProvisionedData p m.certFlash m.certs = (.error code, certs, certFlash)) :
      ClearEffect p token m
        (.error code, { m with
          settings := m.settingsReset p, permissions := perms, certs := certs, certFlash := certFlash })
  | cleared (perms : PermissionState) (certs : CertStore) (certFlash : Option Variable)
      (may : m.MayClear token)
      (resets : PermissionState.initAndSave p m.permissions.flash = (.success, perms))
      (clears : CertStore.initializeProvisionedData p m.certFlash m.certs = (.success, certs, certFlash)) :
      ClearEffect p token m
        (.success, { m with
          settings := m.settingsReset p
          permissions := perms
          certs := certs
          certFlash := certFlash
          auth := m.auth.disposeAllIdentityMappings Mask.keys })

theorem clearDfci_effect (p : Platform) (token : AuthToken) (m : Machine) :
    ClearEffect p token m (m.clearDfci p token) := by
  rw [clearDfci]
  split
  · rename_i invalid
    exact .refused _ fun may => may.valid invalid
  · rename_i valid
    rw [systemSettingsAccessReset]
    cases permitted : m.hasUnenrollPermission token with
    | error status =>
      have denied : ¬ m.MayClear token := fun may => by simp [may.permitted] at permitted
      cases status with
      | error code => exact .refused code denied
      | success =>
        -- a failed check is never a success
        exact absurd permitted (hasUnenrollPermission_ne_error_success m token)
    | ok permission =>
      cases permission with
      | false => exact .refused _ fun may => by simp [may.permitted] at permitted
      | true =>
        have may : m.MayClear token := ⟨valid, permitted⟩
        have still : ({ m with settings := m.settingsReset p } : Machine).hasUnenrollPermission token =
            .ok true := permitted
        change ClearEffect p token m
          (match ({ m with settings := m.settingsReset p } : Machine).resetPermissionsToDefault p
            token with
          | (.error code, m) => (.error code, m)
          | (.success, m) => _)
        rw [resetPermissionsToDefault, still]
        simp only
        cases resets : PermissionState.initAndSave p m.permissions.flash with
        | mk status perms =>
          cases status with
          | error code => exact .permissionsFailed code perms may resets
          | success =>
            simp only
            cases clears : CertStore.initializeProvisionedData p m.certFlash m.certs with
            | mk status rest =>
              obtain ⟨certs, certFlash⟩ := rest
              cases status with
              | error code => exact .certsFailed code perms certs certFlash may resets clears
              | success => exact .cleared perms certs certFlash may resets clears

end Machine

end Dfci
