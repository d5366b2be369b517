import Dfci.Identity.Authenticate
import Dfci.Permission.Authority

/-! # Permission packets: authentication, apply, commit and restore -/

namespace Dfci

/-- `mPermStore` and the variable behind it. -/
structure PermissionState where
  store : Option PermissionStore
  flash : Option Variable
  deriving DecidableEq

/-- `DFCI_LKG_RESTORE` and `DFCI_LKG_COMMIT` -/
inductive LkgOperation where
  | restore
  | commit
  deriving DecidableEq, Repr

namespace Packet

/-- The text of the payload, as far as `AsciiStrnLenS` counts it. -/
def payloadText (data : Packet) : List Byte :=
  data.payloadBytes.takeWhile fun char => char ≠ 0

def signedBytes (data : Packet) : List Byte :=
  data.bytes.take data.signedDataLength

/-- The `WIN_CERTIFICATE` that starts at an offset of the packet. -/
def certificateAt (data : Packet) (offset : Nat) : List Byte :=
  data.bytes.drop offset

/-- `Payload` points into the signed data, behind the first byte of the packet. -/
def payloadInside (data : Packet) (endData : Nat) : Bool :=
  match data.payload with
  | none => false
  | some offset => 0 < offset && offset + data.payloadSize ≤ endData

end Packet

namespace PermissionState

/-- `LoadFromFlash (&mPermStore)` -/
def reload (p : Platform) (perms : PermissionState) : EfiStatus × PermissionState :=
  let (status, store, flash) := PermissionStore.loadFromFlash p perms.flash
  (status, ⟨store, flash⟩)

/-- `SaveToFlash (mPermStore)` -/
def save (p : Platform) (perms : PermissionState) : EfiStatus × PermissionState :=
  match perms.store with
  | none => (.invalidParameter, perms)
  | some store =>
    let (status, saved, flash) := store.saveToFlash p perms.flash
    (status, ⟨some saved, flash⟩)

theorem save_error (p : Platform) (perms : PermissionState)
    (fails : (perms.save p).1 ≠ .success) : (perms.save p).2 = perms := by
  obtain ⟨store, flash⟩ := perms
  cases store with
  | none => rfl
  | some store =>
    simp only [save] at fails ⊢
    rcases PermissionStore.saveToFlash_cases p flash store with
      ⟨_, kept⟩ | ⟨code, refused⟩ | ⟨_, _, _, kept⟩ | ⟨_, _, written⟩
    · rw [kept]
    · rw [refused]
    · rw [kept]
    · rw [written] at fails
      contradiction

end PermissionState

/-- `ValidatePermissionsPacket` -/
def validatePermissionsPacket (data : Packet) : EfiStatus :=
  if maxAllowableDfciApplyVarSize < data.packetSize then
    .compromisedData
  else if data.packetSize ≤ data.signedDataLength then
    .compromisedData
  else if data.signature ≠ some data.signedDataLength then
    .compromisedData
  else if data.payloadInside data.signedDataLength then
    .success
  else
    .compromisedData

/-- `ValidateAndAuthenticatePermissions` -/
def validateAndAuthenticatePermissions (p : Platform) (certs : CertStore) (auth : AuthState)
    (data : Packet) : EfiStatus × AuthState × Packet :=
  let signature := data.certificateAt data.signedDataLength
  if data.packetSize - data.signedDataLength ≠ winCertLength signature then
    (.badBufferSize, auth, data.fail .dataInvalid .badBufferSize)
  else
    match authWithSignedData p certs auth data.signedBytes signature data.authToken with
    | (.error _, _, auth) => (.securityViolation, auth, data.fail .dataAuthFailed .securityViolation)
    | (.success, token, auth) => (.success, auth, { data with state := .dataAuthenticated, authToken := token })

/-- `ApplyPermissionsInXml`, with the answer of `GetIdentityProperties` for the packet's token. -/
def applyPermissionsInXml (p : Platform) (properties : Except EfiStatus Identity)
    (perms : PermissionState) (data : Packet) : EfiStatus × PermissionState × Packet :=
  if data.state ≠ .dataAuthenticated then
    (.aborted, perms, data.fail .dataSystemError .aborted)
  else
    match properties, perms.store with
    | .error _, _ => (.aborted, perms, data.fail .dataSystemError .aborted)
    -- the source reads through mPermStore without a test
    | .ok _, none => (.notReady, perms, data.fail .dataSystemError .notReady)
    | .ok identity, some store =>
      match store.applyPermissions p data.v1Mode identity data.payloadText with
      | .error failure => (failure.status, (perms.reload p).2, data.fail failure.state failure.status)
      | .ok applied =>
        (.success, { perms with store := some applied.store },
          { data with state := .dataApplied, statusCode := .success, resultXmlSize := applied.resultXmlSize })

structure PermissionsApplied where
  status : EfiStatus
  auth : AuthState
  permissions : PermissionState
  data : Packet

/-- The `CLEANUP` label of the apply functions, which keeps the token that no list entry holds. -/
def cleanupToken (auth : AuthState) (data : Packet) : AuthState × Packet :=
  if data.authToken = authTokenInvalid then
    (auth, data)
  else
    let disposed := auth.disposeAuthToken data.authToken
    (disposed.2.2, { data with authToken := disposed.2.1 })

def PermissionsApplied.cleanup (applied : PermissionsApplied) : PermissionsApplied :=
  let cleaned := cleanupToken applied.auth applied.data
  { applied with auth := cleaned.1, data := cleaned.2 }

/-- The steps of `ApplyNewPermissionsPacket` up to its `CLEANUP` label. -/
def applyPermissionsSteps (p : Platform) (certs : CertStore) (auth : AuthState)
    (perms : PermissionState) (data : Packet) : PermissionsApplied :=
  if data.state ≠ .dataPresent then
    ⟨.aborted, auth, perms, data⟩
  else
    match validatePermissionsPacket data with
    | .error code => ⟨.error code, auth, perms, data.fail .dataSystemError .aborted⟩
    | .success =>
      match validateAndAuthenticatePermissions p certs auth data with
      | (.error code, auth, data) => ⟨.error code, auth, perms, data⟩
      | (.success, auth, data) =>
        match applyPermissionsInXml p (auth.getIdentityProperties data.authToken) perms data with
        | (.error code, perms, data) => ⟨.error code, auth, perms, data⟩
        | (.success, perms, data) =>
          ⟨.success, auth,
            { perms with store := perms.store.map fun store => { store with modified := true } },
            { data with lkgDirty := true }⟩

def applyNewPermissionsPacket (p : Platform) (certs : CertStore) (auth : AuthState)
    (perms : PermissionState) (data : Packet) : PermissionsApplied :=
  (applyPermissionsSteps p certs auth perms data).cleanup

/-- The permission manager's `LKG_Handler` -/
def permissionsLkgHandler (p : Platform) (op : LkgOperation) (perms : PermissionState)
    (data : Packet) : EfiStatus × PermissionState × Packet :=
  if !data.lkgDirty then
    (.success, perms, data)
  else
    let (status, perms) :=
      match op with
      | .restore => perms.reload p
      | .commit =>
        let (status, saved) := perms.save p
        if status.isError then (status, (saved.reload p).2) else (status, saved)
    let clean := { data with lkgDirty := false }
    (status, perms, if status.isError then clean.fail .dataSystemError status else clean)

/-! ## What a packet can do -/

/-- The identity in whose name the document of a packet is applied, if the packet gets that far. -/
def permissionsSigner (p : Platform) (certs : CertStore) (auth : AuthState) (data : Packet) :
    Option Identity :=
  if data.state = .dataPresent ∧ validatePermissionsPacket data = .success ∧
      data.packetSize - data.signedDataLength = winCertLength (data.certificateAt data.signedDataLength) ∧
      (authWithSignedData p certs auth data.signedBytes (data.certificateAt data.signedDataLength)
        data.authToken).1 = .success then
    signerOf p certs data.signedBytes (data.certificateAt data.signedDataLength)
  else
    none

structure PermissionsApplied.Leaves (applied : PermissionsApplied) (result : EfiStatus)
    (after : PermissionState) (dirty : Bool) : Prop where
  status : applied.status = result
  permissions : applied.permissions = after
  lkgDirty : applied.data.lkgDirty = dirty
  statusCode : result = .success → applied.data.statusCode = .success

@[simp] theorem cleanupToken_lkgDirty (auth : AuthState) (data : Packet) :
    (cleanupToken auth data).2.lkgDirty = data.lkgDirty := by
  rw [cleanupToken]
  split <;> rfl

@[simp] theorem cleanupToken_statusCode (auth : AuthState) (data : Packet) :
    (cleanupToken auth data).2.statusCode = data.statusCode := by
  rw [cleanupToken]
  split <;> rfl

theorem PermissionsApplied.Leaves.cleanup {applied : PermissionsApplied} {result : EfiStatus}
    {after : PermissionState} {dirty : Bool} (leaves : applied.Leaves result after dirty) :
    applied.cleanup.Leaves result after dirty where
  status := leaves.status
  permissions := leaves.permissions
  lkgDirty := (cleanupToken_lkgDirty _ _).trans leaves.lkgDirty
  statusCode := fun succeeded => (cleanupToken_statusCode _ _).trans (leaves.statusCode succeeded)

section

variable {p : Platform} {certs : CertStore} {auth : AuthState} {perms : PermissionState}
  {data : Packet}

theorem validateAndAuthenticatePermissions_cases (p : Platform) (certs : CertStore) (auth : AuthState)
    (data : Packet) : (∃ code after state status, validateAndAuthenticatePermissions p certs auth data =
        (.error code, after, data.fail state status) ∧ state.isSettled = true ∧
      ¬ (data.packetSize - data.signedDataLength = winCertLength (data.certificateAt data.signedDataLength) ∧
        (authWithSignedData p certs auth data.signedBytes (data.certificateAt data.signedDataLength)
          data.authToken).1 = .success)) ∨
    ∃ after token identity, validateAndAuthenticatePermissions p certs auth data =
        (.success, after, { data with state := .dataAuthenticated, authToken := token }) ∧
      (data.packetSize - data.signedDataLength = winCertLength (data.certificateAt data.signedDataLength) ∧
        (authWithSignedData p certs auth data.signedBytes (data.certificateAt data.signedDataLength)
          data.authToken).1 = .success) ∧
      after.getIdentityProperties token = .ok identity ∧
      signerOf p certs data.signedBytes (data.certificateAt data.signedDataLength) = some identity := by
  by_cases sized : data.packetSize - data.signedDataLength = winCertLength (data.certificateAt data.signedDataLength)
  · rcases authenticated : authWithSignedData p certs auth data.signedBytes
      (data.certificateAt data.signedDataLength) data.authToken with ⟨status, token, after⟩
    cases status with
    | success =>
      obtain ⟨identity, signs, stands⟩ := authWithSignedData_success authenticated
      exact .inr ⟨after, token, identity, by simp [validateAndAuthenticatePermissions, sized, authenticated],
        ⟨sized, rfl⟩, stands, signs⟩
    | error code =>
      refine .inl ⟨26, after, .dataAuthFailed, .securityViolation, ?_, rfl, by simp⟩
      simp [validateAndAuthenticatePermissions, sized, authenticated]
  · refine .inl ⟨4, auth, .dataInvalid, .badBufferSize, ?_, rfl, fun both => sized both.1⟩
    simp [validateAndAuthenticatePermissions, sized]

/-- A packet that is turned away before its document is read changes nothing. -/
theorem applyNewPermissionsPacket_rejected (perms : PermissionState)
    (rejected : permissionsSigner p certs auth data = none) :
    ∃ code, (applyNewPermissionsPacket p certs auth perms data).Leaves (.error code) perms data.lkgDirty := by
  suffices steps : ∃ code, (applyPermissionsSteps p certs auth perms data).Leaves (.error code)
      perms data.lkgDirty by
    obtain ⟨code, leaves⟩ := steps
    exact ⟨code, leaves.cleanup⟩
  rw [applyPermissionsSteps]
  by_cases present : data.state = .dataPresent
  · rw [if_neg (not_not_intro present)]
    cases valid : validatePermissionsPacket data with
    | error code => exact ⟨code, rfl, rfl, rfl, (by simp)⟩
    | success =>
      rcases validateAndAuthenticatePermissions_cases p certs auth data with
        ⟨code, after, state, status, fails, _, _⟩ | ⟨_, _, _, _, checks, _, signs⟩
      · simp only [fails]
        exact ⟨code, rfl, rfl, rfl, (by simp)⟩
      · rw [permissionsSigner, if_pos ⟨present, valid, checks⟩, signs] at rejected
        contradiction
  · rw [if_pos present]
    exact ⟨_, rfl, rfl, rfl, (by simp)⟩

/-- The document of an authenticated packet is applied in the name of its signer. A document that fails
reloads the store. -/
theorem applyNewPermissionsPacket_signed {identity : Identity} {store : PermissionStore}
    (signed : permissionsSigner p certs auth data = some identity) (isStore : perms.store = some store) :
    match store.applyPermissions p data.v1Mode identity data.payloadText with
    | .error failure =>
      (applyNewPermissionsPacket p certs auth perms data).Leaves failure.status (perms.reload p).2 data.lkgDirty
    | .ok applied =>
      (applyNewPermissionsPacket p certs auth perms data).Leaves .success
        { perms with store := some { applied.store with modified := true } } true := by
  rw [permissionsSigner] at signed
  split at signed
  · rename_i checks
    obtain ⟨present, valid, sized⟩ := checks
    rcases validateAndAuthenticatePermissions_cases p certs auth data with
      ⟨_, _, _, _, _, _, failed⟩ | ⟨after, token, signer, works, _, stands, signs⟩
    · exact absurd sized failed
    · have same : signer = identity := by simpa [signed] using signs.symm
      subst same
      have steps : applyPermissionsSteps p certs auth perms data =
          match applyPermissionsInXml p (.ok signer) perms
            { data with state := .dataAuthenticated, authToken := token } with
          | (.error code, perms, data) => ⟨.error code, after, perms, data⟩
          | (.success, perms, data) =>
            ⟨.success, after,
              { perms with store := perms.store.map fun store => { store with modified := true } },
              { data with lkgDirty := true }⟩ := by
        rw [applyPermissionsSteps, if_neg (not_not_intro present)]
        simp only [valid, works, stands]
      have document : Packet.payloadText { data with state := .dataAuthenticated, authToken := token } =
          data.payloadText := rfl
      cases applies : store.applyPermissions p data.v1Mode signer data.payloadText with
      | error failure =>
        apply PermissionsApplied.Leaves.cleanup
        rw [steps]
        simp only [applyPermissionsInXml, isStore, document, applies, ne_eq, not_true, if_false]
        obtain ⟨state, status, isError⟩ := failure
        cases status with
        | success => contradiction
        | error code => exact ⟨rfl, rfl, rfl, (by simp)⟩
      | ok applied =>
        apply PermissionsApplied.Leaves.cleanup
        rw [steps]
        simp only [applyPermissionsInXml, isStore, document, applies, ne_eq, not_true, if_false]
        exact ⟨rfl, rfl, rfl, fun _ => rfl⟩
  · contradiction

theorem applyNewPermissionsPacket_noStore (absent : perms.store = none) :
    (applyNewPermissionsPacket p certs auth perms data).permissions = perms := by
  change (applyPermissionsSteps p certs auth perms data).permissions = perms
  have aborts : ∀ properties data, ∃ code after,
      applyPermissionsInXml p properties perms data = (.error code, perms, after) := by
    intro properties data
    unfold applyPermissionsInXml
    rw [absent]
    split
    · exact ⟨_, _, rfl⟩
    · cases properties with
      | error status | ok identity => exact ⟨_, _, rfl⟩
  rw [applyPermissionsSteps]
  split
  · rfl
  · split
    · rfl
    · split
      · rfl
      · rename_i authenticated data _
        obtain ⟨code, after, fails⟩ := aborts (authenticated.getIdentityProperties data.authToken) data
        rw [fails]

/-- What a permission packet can do: be turned away, reload the store because its document fails, or be applied. -/
inductive PermissionsEffect (p : Platform) (certs : CertStore) (auth : AuthState) (perms : PermissionState)
    (data : Packet) : PermissionsApplied → Prop
  | rejected (code : Nat) (after : AuthState) (record : Packet) (same : record.SameRequest data)
      (settled : record.state.isSettled = true) (reported : record.statusCode.isError = true) :
      PermissionsEffect p certs auth perms data ⟨.error code, after, perms, record⟩
  | reloaded (code : Nat) (after : AuthState) (record : Packet) (same : record.SameRequest data)
      (settled : record.state.isSettled = true) (reported : record.statusCode.isError = true) :
      PermissionsEffect p certs auth perms data
        ⟨.error code, after, (perms.reload p).2, record⟩
  | applied (identity : Identity) (store : PermissionStore) (result : PermissionStore.AppliedPermissions) (after : AuthState)
      (record : Packet) (isStore : perms.store = some store)
      (applies : store.applyPermissions p data.v1Mode identity data.payloadText = .ok result)
      (same : record.SameRequest { data with lkgDirty := true }) (settled : record.state.isSettled = true)
      (reported : record.statusCode = .success) :
      PermissionsEffect p certs auth perms data
        ⟨.success, after, { perms with store := some { result.store with modified := true } }, record⟩

theorem PermissionsEffect.cleanup {applied : PermissionsApplied}
    (effect : PermissionsEffect p certs auth perms data applied) :
    PermissionsEffect p certs auth perms data applied.cleanup := by
  have records : ∀ auth record, ∃ token, (cleanupToken auth record).2 = { record with authToken := token } := by
    intro auth record
    rw [cleanupToken]
    split
    · exact ⟨record.authToken, rfl⟩
    · exact ⟨_, rfl⟩
  cases effect with
  | rejected code after record same settled reported =>
    obtain ⟨token, cleaned⟩ := records after record
    simp only [PermissionsApplied.cleanup, cleaned]
    exact .rejected code _ _ ⟨same.packet, same.payload, same.payloadSize, same.unenroll, same.lkgDirty⟩ settled reported
  | reloaded code after record same settled reported =>
    obtain ⟨token, cleaned⟩ := records after record
    simp only [PermissionsApplied.cleanup, cleaned]
    exact .reloaded code _ _ ⟨same.packet, same.payload, same.payloadSize, same.unenroll, same.lkgDirty⟩ settled reported
  | applied identity store result after record isStore applies same settled reported =>
    obtain ⟨token, cleaned⟩ := records after record
    simp only [PermissionsApplied.cleanup, cleaned]
    exact .applied identity store result _ _ isStore applies
      ⟨same.packet, same.payload, same.payloadSize, same.unenroll, same.lkgDirty⟩ settled reported

/-- A new permission packet is turned away, reloads the store, or is applied. -/
theorem applyNewPermissionsPacket_effect (p : Platform) (certs : CertStore) (auth : AuthState)
    (perms : PermissionState) (present : data.state = .dataPresent) : PermissionsEffect p certs auth perms data
      (applyNewPermissionsPacket p certs auth perms data) := by
  apply PermissionsEffect.cleanup
  rw [applyPermissionsSteps, if_neg (not_not_intro present)]
  cases valid : validatePermissionsPacket data with
  | error code => exact .rejected code auth _ ⟨rfl, rfl, rfl, rfl, rfl⟩ rfl rfl
  | success =>
    simp only [validateAndAuthenticatePermissions]
    split
    · rename_i code after record fails
      split at fails
      · cases fails
        exact .rejected _ _ _ ⟨rfl, rfl, rfl, rfl, rfl⟩ rfl rfl
      · split at fails
        · cases fails
          exact .rejected _ _ _ ⟨rfl, rfl, rfl, rfl, rfl⟩ rfl rfl
        · cases fails
    · rename_i after record authenticates
      split at authenticates
      · cases authenticates
      · split at authenticates
        · cases authenticates
        · rename_i token _ _
          cases authenticates
          cases properties : after.getIdentityProperties token with
          | error status => exact .rejected _ _ _ ⟨rfl, rfl, rfl, rfl, rfl⟩ rfl rfl
          | ok identity =>
            cases isStore : perms.store with
            | none =>
              simp only [applyPermissionsInXml, isStore, ne_eq, not_true, if_false]
              exact .rejected _ _ _ ⟨rfl, rfl, rfl, rfl, rfl⟩ rfl rfl
            | some store =>
              have document : Packet.payloadText { data with state := .dataAuthenticated, authToken := token } =
                  data.payloadText := rfl
              simp only [applyPermissionsInXml, isStore, document, ne_eq, not_true, if_false]
              cases applies : store.applyPermissions p data.v1Mode identity data.payloadText with
              | error failure =>
                obtain ⟨state, status, isError, settled⟩ := failure
                cases status with
                | success => contradiction
                | error code => exact .reloaded code _ _ ⟨rfl, rfl, rfl, rfl, rfl⟩ settled rfl
              | ok result => exact .applied identity store result _ _ isStore applies ⟨rfl, rfl, rfl, rfl, rfl⟩ rfl rfl

end

end Dfci
