import Dfci.Machine

/-! # Identity packets: authentication, the user's approval, apply, commit and restore -/

namespace Dfci

open ByteFields

/-- `VarIdentityToDfciIdentity` -/
def varIdentityToDfciIdentity (varIdentity : Byte) : Option Identity :=
  match varIdentity with
  | 1 => some .signerOwner
  | 2 => some .signerUser
  | 3 => some .signerUser1
  | 4 => some .signerUser2
  | 5 => some .signerZtd
  | _ => none

/-- `DfciIdentityToSettingId` -/
def Identity.toSettingId : Identity → Option SettingId
  | .signerZtd => some ztdKeyId
  | .signerUser => some userKeyId
  | .signerOwner => some ownerKeyId
  | .signerUser1 => some user1KeyId
  | .signerUser2 => some user2KeyId
  | _ => none

/-- `ValidateIdentityPacket` -/
def validateIdentityPacket (data : Packet) : EfiStatus :=
  let endData := data.signedDataLength
  let inside := fun (pointer : Option Nat) => pointer.any fun offset => 0 < offset && offset < endData
  -- the version and LSV pointers are looked at only when they are null, and then they fail
  let versionMissing := fun (pointer : Option Nat) => 2 ≤ (byteAt data.bytes 4).toNat && pointer.isNone
  if maxAllowableDfciApplyVarSize < data.packetSize then
    .compromisedData
  else if data.packetSize ≤ data.signedDataLength then
    .compromisedData
  else if data.signature ≠ some endData then
    .compromisedData
  else if !inside data.varIdentity then
    .compromisedData
  else if versionMissing data.version || versionMissing data.lsv then
    .compromisedData
  else if (data.payloadSize ≠ 0 || data.payload.isSome) && !data.payloadInside endData then
    .compromisedData
  else
    .success

/-- The check of the test signature, by which a new certificate signs itself: the length of what the packet's own
signature covers. -/
def checkTestSignature (p : Platform) (data : Packet) : Except PacketError Nat :=
  let testSignature := data.certificateAt data.signedDataLength
  if data.packetSize ≤ data.signedDataLength + 8 then
    .error ⟨.dataInvalid, .compromisedData, .refl true, .refl true⟩
  else if data.packetSize < winCertLength testSignature + data.signedDataLength then
    .error ⟨.dataInvalid, .compromisedData, .refl true, .refl true⟩
  else if (verifySignature p data.payloadBytes testSignature data.payloadBytes).isError then
    .error ⟨.dataInvalid, .crcError, .refl true, .refl true⟩
  else
    .ok (data.signedDataLength + winCertLength testSignature)

/-- The checks of `ValidateAndAuthenticatePendingProvisionData` before the signature: the length it covers, and who may
change the key. -/
def checkPendingProvisionData (p : Platform) (m : Machine) (identity : Identity) (data : Packet) :
    Except PacketError (Nat × Mask) := do
  if identity ≠ .signerOwner ∧ !m.certs.populatedIdentities.has .signerOwner then
    throw ⟨.dataNoOwner, .unsupported, .refl true, .refl true⟩
  if data.payloadSize = 0 ∧ !m.certs.populatedIdentities.has identity then
    throw ⟨.dataNoOwner, .unsupported, .refl true, .refl true⟩
  let signedLength ← if 0 < data.payloadSize then checkTestSignature p data else .ok data.signedDataLength
  if data.packetSize ≤ signedLength + 28 then
    throw ⟨.dataInvalid, .compromisedData, .refl true, .refl true⟩
  let permMask ←
    match identity.toSettingId, m.permissions.store with
    | none, _ => throw ⟨.dataInvalid, .invalidParameter, .refl true, .refl true⟩
    | some _, none => throw ⟨.dataInvalid, .notReady, .refl true, .refl true⟩
    | some id, some store => .ok (store.queryPermission id)
  if data.packetSize ≠ winCertLength (data.certificateAt signedLength) + signedLength then
    throw ⟨.dataInvalid, .compromisedData, .refl true, .refl true⟩
  .ok (signedLength, permMask)

structure PassedChecks (m : Machine) (identity : Identity) (data : Packet) (permMask : Mask) : Prop where
  owned : identity = .signerOwner ∨ m.certs.populatedIdentities.has .signerOwner = true
  enrolled : data.payloadSize = 0 → m.certs.populatedIdentities.has identity = true
  mask : ∃ id store, identity.toSettingId = some id ∧ m.permissions.store = some store ∧
    permMask = store.queryPermission id

structure ProvisionChecks (p : Platform) (m : Machine) (identity : Identity) (data : Packet)
    (signedLength : Nat) (permMask : Mask) : Prop extends PassedChecks m identity data permMask where
  tested : (if 0 < data.payloadSize then checkTestSignature p data else .ok data.signedDataLength) =
    .ok signedLength
  long : signedLength + 28 < data.packetSize
  reaches : data.packetSize = winCertLength (data.certificateAt signedLength) + signedLength

theorem checkPendingProvisionData_checks {p : Platform} {m : Machine} {identity : Identity}
    {data : Packet} {signedLength : Nat} {permMask : Mask}
    (checks : checkPendingProvisionData p m identity data = .ok (signedLength, permMask)) :
    ProvisionChecks p m identity data signedLength permMask := by
  -- one check after another, in the order of the source
  obtain ⟨owned, checks⟩ := Fallible.ite_throw_eq_ok.mp checks
  obtain ⟨enrolled, checks⟩ := Fallible.ite_throw_eq_ok.mp checks
  obtain ⟨length, tested, checks⟩ := Fallible.bind_eq_ok.mp ((Fallible.ite_bind ..).symm.trans checks)
  obtain ⟨long, checks⟩ := Fallible.ite_throw_eq_ok.mp checks
  cases isId : identity.toSettingId with
  | none =>
    rw [isId] at checks
    cases checks
  | some id =>
    cases isStore : m.permissions.store with
    | none =>
      rw [isId, isStore] at checks
      cases checks
    | some store =>
      rw [isId, isStore] at checks
      obtain ⟨mask, isMask, checks⟩ := Fallible.bind_eq_ok.mp checks
      obtain ⟨reaches, result⟩ := Fallible.ite_throw_eq_ok.mp checks
      cases isMask
      cases result
      exact {
        owned := by simpa [← or_iff_not_imp_left] using owned
        enrolled := by simpa using enrolled
        mask := ⟨id, store, isId, isStore, rfl⟩
        tested := tested
        long := Nat.lt_of_not_le long
        reaches := not_not.mp reaches }

/-- A signer whose signature is enough. An unenroll that ZTD signed is allowed for the keys in the mask of
`Dfci.ZtdUnenroll.Enable`. -/
def signerMayProvision (store : Option PermissionStore) (identity : Identity) (data : Packet) (permMask : Mask)
    (signer : Identity) : Bool :=
  if data.payloadSize = 0 ∧ signer = .signerZtd then
    store.any fun store => (store.queryPermission ztdUnenrollId).has identity
  else
    permMask.has signer

def localMayProvision (auth : AuthState) (data : Packet) (permMask : Mask) :
    EfiStatus × AuthState × Packet :=
  if permMask.has .local then
    (.success, auth,
      { data with userConfirmationRequired := true, statusCode := .success, state := .dataAuthenticated })
  else
    (.accessDenied, auth, data.fail .dataAuthFailed .accessDenied)

/-- `ValidateAndAuthenticatePendingProvisionData` -/
def validateAndAuthenticatePendingProvisionData (p : Platform) (m : Machine) (data : Packet) :
    EfiStatus × AuthState × Packet :=
  match varIdentityToDfciIdentity (byteAt data.bytes (data.varIdentity.getD 0)) with
  | none => (.unsupported, m.auth, { data with dfciIdentity := none }.fail .dataInvalid .unsupported)
  | some identity =>
    let data := { data with dfciIdentity := some identity }
    match checkPendingProvisionData p m identity data with
    | .error failure => (failure.status, m.auth, data.fail failure.state failure.status)
    | .ok (signedLength, permMask) =>
      match authWithSignedData p m.certs m.auth (data.bytes.take signedLength)
        (data.certificateAt signedLength) data.authToken with
      | (.error _, _, auth) => localMayProvision auth data permMask
      | (.success, token, auth) =>
        let data := { data with authToken := token }
        match auth.getIdentityProperties token with
        | .error _ => (.aborted, auth, data.fail .dataAuthFailed .aborted)
        | .ok signer =>
          if signerMayProvision m.permissions.store identity data permMask signer then
            (.success, auth,
              { data with userConfirmationRequired := false, statusCode := .success, state := .dataAuthenticated })
          else
            localMayProvision auth data permMask

/-! ## The user's approval -/

structure UserAnswer where
  confirmed : Bool
  token : AuthToken
  auth : AuthState

def askForPassword (p : Platform) (dialog : Nat → DialogAnswer) (passwordLength : Password → Nat) :
    Nat → Nat → AuthToken → AuthState → UserAnswer
  | 0, _, token, auth => ⟨false, token, auth⟩
  | remaining + 1, attempt, token, auth =>
    match dialog attempt with
    | .error | .cancel => ⟨false, token, auth⟩
    | .other => askForPassword p dialog passwordLength remaining (attempt + 1) token auth
    | .ok password =>
      let (_, token, auth) :=
        match password with
        | none => auth.authWithPW p .null 0
        | some text => auth.authWithPW p (.buffer text) (passwordLength text)
      if token = authTokenInvalid then
        askForPassword p dialog passwordLength remaining (attempt + 1) token auth
      else
        ⟨true, token, auth⟩

/-- `UiEnrollRequest`, with `GetConfirmationWithDfciAuthDialog` -/
def uiEnrollRequest (p : Platform) (ui : UserInterface) (trustedCert : List Byte) (password : Bool)
    (token : AuthToken) (auth : AuthState) : UserAnswer :=
  askForPassword p (ui.authDialog trustedCert password) (fun text => if password then text.length else 0) 3 0
    token auth

/-- `UiUnenrollRequest`, with `GetConfirmationWithPasswordDialog` -/
def uiUnenrollRequest (p : Platform) (ui : UserInterface) (password : Bool) (token : AuthToken)
    (auth : AuthState) : UserAnswer :=
  if password then
    askForPassword p ui.passwordDialog List.length 3 0 token auth
  else
    match ui.unenrollMessageBox with
    | .ok _ => ⟨true, token, auth⟩
    | _ => ⟨false, token, auth⟩

/-- `LocalGetAnswerFromUser`. Without a password in the store the first `AuthWithPW` succeeds. -/
def localGetAnswerFromUser (p : Platform) (ui : UserInterface) (trustedCert : List Byte) (trustedCertSize : Nat)
    (token : AuthToken) (auth : AuthState) : EfiStatus × AuthToken × AuthState :=
  if !ui.available then
    (.notReady, token, auth)
  else
    let (status, token, auth) := auth.authWithPW p .null 0
    if status ≠ .success ∧ status ≠ .securityViolation then
      (.deviceError, token, auth)
    else
      let password := decide (status ≠ .success)
      let answer :=
        if trustedCertSize = 0 then uiUnenrollRequest p ui password token auth
        else uiEnrollRequest p ui trustedCert password token auth
      (if answer.confirmed then .success else .accessDenied, answer.token, answer.auth)

/-! ## Applying the change -/

/-- The slot of a key as `ApplyProvisionData` leaves it. -/
def CertStore.provision (certs : CertStore) (identity : Identity) (i : Fin 7) (data : Packet) : CertStore :=
  let removed :=
    if (certs.certs i).cert.isSome then
      { certs.setCert i .empty with populatedIdentities := certs.populatedIdentities &&& ~~~identity.bit }
    else
      certs
  if data.payload.isSome then
    { removed.setCert i ⟨if 0 < data.payloadSize then some data.payloadBytes else none, data.payloadSize⟩ with
      populatedIdentities := removed.populatedIdentities ||| identity.bit }
  else
    removed

structure IdentityApplied where
  status : EfiStatus
  machine : Machine
  data : Packet

/-- `ApplyProvisionData` for an approved packet. Removing the Owner clears everything. -/
def applyProvisionData (p : Platform) (m : Machine) (identity : Identity) (data : Packet) :
    IdentityApplied :=
  if data.payloadSize = 0 ∧ identity = .signerOwner then
    let (status, m) := m.clearDfci p data.authToken
    let data := { data with resetRequired := true, statusCode := status }
    ⟨status, m, { data with state := if status.isError then .dataSystemError else .dataComplete }⟩
  else
    match identity.toCertIndex with
    | none => ⟨.unsupported, m, data.fail .dataInvalid .unsupported⟩
    | some i =>
      ⟨.success, { m with certs := m.certs.provision identity i data },
        { data with lkgDirty := true, statusCode := .success, state := .dataComplete }⟩

/-- The change `ApplyNewIdentityPacket` announces to the permission manager. -/
def identityChangeType (certs : CertStore) (identity : Identity) (data : Packet) : IdentityChangeType :=
  if data.payloadSize = 0 then .unenroll
  else if identity = .signerOwner ∧ !certs.populatedIdentities.has .signerOwner then .firstEnroll
  else .enroll

/-- Steps 5 and 6 of `ApplyNewIdentityPacket`: apply the change and notify the permission manager. -/
def applyApproved (p : Platform) (m : Machine) (identity : Identity) (data : Packet) :
    IdentityApplied :=
  let changeType := identityChangeType m.certs identity data
  let applied := applyProvisionData p m identity data
  if applied.status.isError then
    applied
  else
    match applied.machine.permissions.identityChange p
      (applied.machine.auth.getIdentityProperties applied.data.authToken) identity changeType with
    | (.error code, perms) =>
      ⟨.error code, { applied.machine with permissions := perms }, applied.data.fail .dataInvalid (.error code)⟩
    | (.success, perms) =>
      ⟨.success,
        { applied.machine with
          permissions := perms
          auth := applied.machine.auth.disposeAllIdentityMappings identity.bit },
        applied.data⟩

/-- Step 4 of `ApplyNewIdentityPacket`: the approval, if one is required. -/
def approve (p : Platform) (ui : UserInterface) (auth : AuthState) (data : Packet) :
    EfiStatus × AuthState × Packet :=
  if !data.userConfirmationRequired then
    (.success, auth, { data with state := .dataUserApproved })
  else
    match localGetAnswerFromUser p ui data.payloadBytes data.payloadSize data.authToken auth with
    | (.success, token, auth) =>
      (.success, auth, { data with authToken := token, resetRequired := true, state := .dataUserApproved })
    | (.error code, token, auth) =>
      let data := { data with authToken := token }
      (.error code, auth,
        if EfiStatus.error code = .notReady then data.fail .dataSystemError .notReady
        else data.fail .dataUserRejected .aborted)

/-- The steps of `ApplyNewIdentityPacket` up to its `CLEANUP` label. -/
def applyIdentitySteps (p : Platform) (ui : UserInterface) (m : Machine) (data : Packet) :
    IdentityApplied :=
  if data.state ≠ .dataPresent then
    ⟨.aborted, m, data⟩
  else
    match validateIdentityPacket data with
    | .error code => ⟨.error code, m, data.fail .dataSystemError .aborted⟩
    | .success =>
      match validateAndAuthenticatePendingProvisionData p m data with
      | (.error code, auth, data) => ⟨.error code, { m with auth := auth }, data⟩
      | (.success, auth, data) =>
        if !ui.available && data.userConfirmationRequired then
          ⟨.success, { m with auth := auth }, { data with state := .dataDelayedProcessing }⟩
        else
          match approve p ui auth data with
          | (.error code, auth, data) => ⟨.error code, { m with auth := auth }, data⟩
          | (.success, auth, data) =>
            match data.dfciIdentity with
            | none => ⟨.unsupported, { m with auth := auth }, data.fail .dataInvalid .unsupported⟩
            | some identity => applyApproved p { m with auth := auth } identity data

/-- The `CLEANUP` label of `ApplyNewIdentityPacket`, which forgets the token in any case. -/
def IdentityApplied.cleanup (applied : IdentityApplied) : IdentityApplied :=
  if applied.data.authToken = authTokenInvalid then
    applied
  else
    { applied with
      machine := { applied.machine with auth := (applied.machine.auth.disposeAuthToken applied.data.authToken).2.2 }
      data := { applied.data with authToken := authTokenInvalid } }

def applyNewIdentityPacket (p : Platform) (ui : UserInterface) (m : Machine) (data : Packet) :
    IdentityApplied :=
  (applyIdentitySteps p ui m data).cleanup

/-- The identity manager's `LKG_Handler` -/
def identityLkgHandler (p : Platform) (op : LkgOperation) (m : Machine) (data : Packet) :
    IdentityApplied :=
  if !data.lkgDirty then
    ⟨.success, m, data⟩
  else
    let (status, m) :=
      match op with
      | .restore =>
        let (status, certs) := CertStore.loadProvisionedData m.certFlash m.certs
        (status, { m with certs := certs })
      | .commit =>
        let (status, certFlash) := CertStore.saveProvisionedData p m.certFlash m.certs
        if status.isError then
          (status, { m with certs := (CertStore.loadProvisionedData m.certFlash m.certs).2 })
        else
          (status, { m with certFlash := certFlash })
    let clean := { data with lkgDirty := false }
    ⟨status, m, if status.isError then clean.fail .dataSystemError status else clean⟩

inductive IdentityLkgEffect (p : Platform) (op : LkgOperation) (m : Machine) (data : Packet) :
    Machine → Prop
  | kept (clean : data.lkgDirty = false) : IdentityLkgEffect p op m data m
  | reloaded (dirty : data.lkgDirty = true)
      (fails : op = .commit → (CertStore.saveProvisionedData p m.certFlash m.certs).1.isError = true) :
      IdentityLkgEffect p op m data
        { m with certs := (CertStore.loadProvisionedData m.certFlash m.certs).2 }
  | saved (dirty : data.lkgDirty = true) (commits : op = .commit)
      (succeeds : (CertStore.saveProvisionedData p m.certFlash m.certs).1.isError = false) :
      IdentityLkgEffect p op m data
        { m with certFlash := (CertStore.saveProvisionedData p m.certFlash m.certs).2 }

section

variable (p : Platform) (op : LkgOperation) (m : Machine) (data : Packet)

theorem identityLkgHandler_effect : IdentityLkgEffect p op m data (identityLkgHandler p op m data).machine := by
  simp only [identityLkgHandler]
  cases dirty : data.lkgDirty with
  | false => exact .kept dirty
  | true =>
    cases op with
    | restore => exact .reloaded dirty (by rintro ⟨⟩)
    | commit =>
      simp only [Bool.not_true, Bool.false_eq_true, if_false]
      -- a commit that cannot be written falls back on what was last written
      split
      · next fails => exact .reloaded dirty fun _ => fails
      · next succeeds => exact .saved dirty rfl (by simpa using succeeds)

/-- The handler touches the certificates and their variable, and nothing else. -/
theorem identityLkgHandler_frame :
    let after := (identityLkgHandler p op m data).machine
    after.auth = m.auth ∧ after.permissions = m.permissions ∧ after.settings = m.settings := by
  have effect := identityLkgHandler_effect p op m data
  generalize (identityLkgHandler p op m data).machine = after at effect
  cases effect with
  | kept | reloaded | saved => exact ⟨rfl, rfl, rfl⟩

end

end Dfci
