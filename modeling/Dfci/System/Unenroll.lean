import Dfci.Identity.ZeroTouch
import Dfci.System.Reset

/-! # From an approved removal of the Owner to the clearing

The validation of the packet and `ClearDFCI` ask different entries for the right to unenroll. -/

namespace Dfci

open ByteFields

def Machine.unenrollableBy (m : Machine) (identity : Identity) : Bool :=
  m.permissions.store.any fun store => Machine.unenrollIds.any fun id => (store.queryPermission id).has identity

/-- No group has one of the ids that `HasUnenrollPermission` asks for. -/
def Ungrouped (groups : List Group) : Prop :=
  ∀ id ∈ Machine.unenrollIds, ∀ group ∈ groups, group.members.any (sameSettingId id) = false

/-- A packet that removes the Owner passes `ValidateAndAuthenticatePendingProvisionData` and the user's confirmation,
and leaves this token list and this record. -/
structure ApprovedOwnerUnenroll (p : Platform) (ui : UserInterface) (m : Machine) (data : Packet)
    (auth : AuthState) (record : Packet) : Prop where
  unenroll : data.payloadSize = 0
  names : data.namedIdentity = some .signerOwner
  approves : ∃ middle waiting,
    validateAndAuthenticatePendingProvisionData p m data = (.success, middle, waiting) ∧
    approve p ui middle waiting = (.success, auth, record)

/-- Zero Touch does not remove an Owner in whose place it may not unenroll. -/
def ZtdMayUnenroll (p : Platform) (m : Machine) (data : Packet) : Prop :=
  data.signerFrom p m.certs data.signedDataLength = some .signerZtd →
    m.auth.canCreateToken p = true → m.ztdUnenrollMask.has .signerOwner = true →
    m.unenrollableBy .signerZtd = true

/-! ## The right to unenroll -/

section

variable {p : Platform} {m : Machine}

theorem Ungrouped.hasWritePermissions {groups : List Group} (ungrouped : Ungrouped groups) (store : PermissionStore)
    (identity : Identity) {id : SettingId} (isUnenroll : id ∈ Machine.unenrollIds) :
    PermissionStore.hasWritePermissions groups store identity id = (store.queryPermission id).has identity := by
  have noGroup : groupIdsBySetting groups id = [] := by
    rw [groupIdsBySetting, List.map_eq_nil_iff, List.filter_eq_nil_iff]
    intro group mem
    simp [ungrouped id isUnenroll group mem]
  rw [PermissionStore.hasWritePermissions, noGroup]
  rfl

theorem Machine.hasUnenrollPermission_ungrouped (m : Machine)
    (ungrouped : Ungrouped m.settings.providers.groups) {token : AuthToken} {identity : Identity}
    (ready : m.permissions.store.isSome = true) (stands : m.auth.getIdentityProperties token = .ok identity) :
    m.hasUnenrollPermission token = .ok (m.unenrollableBy identity) := by
  obtain ⟨store, isStore⟩ := Option.isSome_iff_exists.mp ready
  have same : (unenrollIds.any fun id =>
      PermissionStore.hasWritePermissions m.settings.providers.groups store identity id) =
      m.unenrollableBy identity := by
    rw [unenrollableBy, isStore, Option.any_some, Bool.eq_iff_iff, List.any_eq_true, List.any_eq_true]
    constructor
    · rintro ⟨id, mem, writes⟩
      exact ⟨id, mem, by rwa [ungrouped.hasWritePermissions store identity mem] at writes⟩
    · rintro ⟨id, mem, has⟩
      exact ⟨id, mem, by rwa [ungrouped.hasWritePermissions store identity mem]⟩
  rw [hasUnenrollPermission_eq, isStore, stands, ← same]

/-- Whoever the Owner key's mask has may unenroll. -/
theorem Machine.unenrollableBy_of_ownerKey {store : PermissionStore} {identity : Identity}
    (isStore : m.permissions.store = some store)
    (has : (store.queryPermission ownerKeyId).has identity = true) : m.unenrollableBy identity = true := by
  simp [unenrollableBy, isStore, unenrollIds, has]

theorem PermissionState.initAndSave_success_iff (saves : ∀ name data, p.setVariable name data = .success)
    (flash : Option Variable) : (initAndSave p flash).1 = .success ↔
      (PermissionStore.initPermStore p).varSize ≤ PermissionStore.maxSizeForVar := by
  have modified := PermissionStore.initPermStore_modified p
  constructor
  · exact fun saved => (PermissionStore.saveToFlash_accepted modified saved).1
  · intro fits
    by_contra fails
    rcases PermissionStore.saveToFlash_refused modified fails with large | refused
    · omega
    · rw [saves] at refused
      cases refused

/-- With the variable services succeeding, a permitted clearing fails only at an initial permission store that is too
large. -/
theorem Machine.clearDfci_success_iff (saves : ∀ name data, p.setVariable name data = .success)
    {token : AuthToken} (may : m.MayClear token) : (m.clearDfci p token).1 = .success ↔
      (PermissionStore.initPermStore p).varSize ≤ PermissionStore.maxSizeForVar := by
  rw [← PermissionState.initAndSave_success_iff saves m.permissions.flash]
  have effect := m.clearDfci_effect p token
  generalize m.clearDfci p token = result at effect
  cases effect with
  | refused code denied => exact absurd may denied
  | permissionsFailed code perms _ fails => simp [fails]
  | certsFailed code perms certs certFlash _ _ fails =>
    rw [CertStore.initializeProvisionedData_eq _ _ (saves _ _)] at fails
    cases fails
  | cleared perms certs certFlash _ resets => simp [resets]

end

/-! ## Whose token is handed on -/

section

variable {p : Platform} {ui : UserInterface} {m : Machine} {data record : Packet}
  {auth : AuthState}

/-- Without a certificate there is no test signature, and the packet's signature covers what is before it. -/
theorem checkPendingProvisionData_unenroll {identity : Identity} {signedLength : Nat} {permMask : Mask}
    (unenroll : data.payloadSize = 0)
    (checks : checkPendingProvisionData p m identity data = .ok (signedLength, permMask)) :
    signedLength = data.signedDataLength := by
  have tested := (checkPendingProvisionData_checks checks).tested
  rw [if_neg (by omega)] at tested
  cases tested
  rfl

/-- The token of an approved packet stands for one who may change the Owner key, or for ZTD where
`Dfci.ZtdUnenroll.Enable` has the Owner. -/
theorem ApprovedOwnerUnenroll.stands (approved : ApprovedOwnerUnenroll p ui m data auth record) :
    ∃ approver store, m.permissions.store = some store ∧ record.authToken ≠ authTokenInvalid ∧
      auth.getIdentityProperties record.authToken = .ok approver ∧
      (((store.queryPermission ownerKeyId).has approver = true ∧ ZtdMayUnenroll p m data) ∨
        (approver = .signerZtd ∧ data.signerFrom p m.certs data.signedDataLength = some .signerZtd ∧
          m.auth.canCreateToken p = true ∧ m.ztdUnenrollMask.has .signerOwner = true)) := by
  obtain ⟨middle, waiting, validates, approves⟩ := approved.approves
  have validation := validateAndAuthenticatePendingProvisionData_validation p m data
  rw [validates] at validation
  cases validation with
  | signed identity signedLength permMask signer token _ names checks signs allowed mints creates =>
    cases names.symm.trans approved.names
    have covers := checkPendingProvisionData_unenroll approved.unenroll checks
    obtain ⟨_, store, isId, isStore, isMask⟩ := (checkPendingProvisionData_checks checks).mask
    cases isId
    cases approves
    have stands := mints.stands (List.mem_singleton_self _)
    refine ⟨signer, store, isStore, mints.valid _ (List.mem_singleton_self _), stands, ?_⟩
    rw [covers] at signs
    by_cases isZtd : signer = .signerZtd
    · subst isZtd
      simp only [signerMayProvision, approved.unenroll, and_self, if_true, isStore, Option.any_some] at allowed
      exact .inr ⟨rfl, signs, creates, by simpa [Machine.ztdUnenrollMask, isStore] using allowed⟩
    · simp only [signerMayProvision, isZtd, and_false, if_false, isMask] at allowed
      exact .inl ⟨allowed, fun signedByZtd => absurd (Option.some.inj (signs.symm.trans signedByZtd)) isZtd⟩
  | asks identity signedLength permMask token _ minted names checks permits mints origin =>
    cases names.symm.trans approved.names
    have covers := checkPendingProvisionData_unenroll approved.unenroll checks
    obtain ⟨_, store, isId, isStore, isMask⟩ := (checkPendingProvisionData_checks checks).mask
    cases isId
    have available : ui.available = true := by
      by_contra missing
      rw [approve_authenticated, localGetAnswerFromUser, Bool.eq_false_iff.mpr missing] at approves
      cases approves
    obtain ⟨more, asked⟩ := AuthState.localGetAnswerFromUser_asked p ui data.payloadBytes data.payloadSize token
      middle available
    rw [approve_authenticated] at approves
    generalize localGetAnswerFromUser p ui data.payloadBytes data.payloadSize token middle = answer at *
    obtain ⟨status, answered, after⟩ := answer
    cases status with
    | error code => cases approves
    | success =>
      cases approves
      have agreed := asked.agreed rfl
      refine ⟨.local, store, isStore, asked.mints.valid _ agreed, asked.mints.stands agreed, .inl ⟨isMask ▸ permits, ?_⟩⟩
      -- a signer who is enough is not followed by a question
      intro signs canCreate has
      rw [← covers] at signs
      have forbidden := origin.unapproved _ signs canCreate
      simp only [signerMayProvision, approved.unenroll, and_self, if_true, isStore, Option.any_some] at forbidden
      simp only [Machine.ztdUnenrollMask, isStore] at has
      rw [forbidden] at has
      cases has

/-- The right to unenroll is there when `ClearDFCI` asks for it, exactly when ZTD has it where it signed. -/
theorem ApprovedOwnerUnenroll.permitted_iff (approved : ApprovedOwnerUnenroll p ui m data auth record)
    (ungrouped : Ungrouped m.settings.providers.groups) :
    ({ m with auth := auth } : Machine).MayClear record.authToken ↔ ZtdMayUnenroll p m data := by
  obtain ⟨approver, store, isStore, valid, stands, reason⟩ := approved.stands
  have permission : ({ m with auth := auth } : Machine).hasUnenrollPermission record.authToken =
      .ok (m.unenrollableBy approver) :=
    Machine.hasUnenrollPermission_ungrouped { m with auth := auth } ungrouped (by simp [isStore]) stands
  rcases reason with ⟨ownerKey, mayUnenroll⟩ | ⟨rfl, signs, creates, has⟩
  · have unenrollable := Machine.unenrollableBy_of_ownerKey isStore ownerKey
    exact ⟨fun _ => mayUnenroll, fun _ => ⟨valid, by rw [permission, unenrollable]⟩⟩
  · constructor
    · intro may _ _ _
      exact Except.ok.inj (permission.symm.trans may.permitted)
    · intro mayUnenroll
      exact ⟨valid, by rw [permission, mayUnenroll signs creates has]⟩

/-- An approved removal of the Owner is carried out in all three managers exactly when the initial permission store
fits its variable and ZTD, where it signed, has the right to unenroll. -/
theorem ApprovedOwnerUnenroll.clears_iff (saves : ∀ name data, p.setVariable name data = .success)
    (ungrouped : Ungrouped m.settings.providers.groups) (approved : ApprovedOwnerUnenroll p ui m data auth record) :
    (({ m with auth := auth } : Machine).hasUnenrollPermission record.authToken = .ok true ∧
        (({ m with auth := auth } : Machine).clearDfci p record.authToken).1 = .success) ↔
      (PermissionStore.initPermStore p).varSize ≤ PermissionStore.maxSizeForVar ∧
        ZtdMayUnenroll p m data := by
  have permitted := approved.permitted_iff ungrouped
  obtain ⟨_, _, _, valid, _⟩ := approved.stands
  constructor
  · rintro ⟨permission, clears⟩
    have may : ({ m with auth := auth } : Machine).MayClear record.authToken := ⟨valid, permission⟩
    exact ⟨(Machine.clearDfci_success_iff saves may).mp clears, permitted.mp may⟩
  · rintro ⟨fits, mayUnenroll⟩
    have may := permitted.mpr mayUnenroll
    exact ⟨may.permitted, (Machine.clearDfci_success_iff saves may).mpr fits⟩

end

/-! ## A local user, and Zero Touch where the Owner took away its right -/

theorem ApprovedOwnerUnenroll.of_success {p : Platform} {ui : UserInterface} {m : Machine} {data : Packet}
    (approves : (data.payloadSize = 0 ∧ data.namedIdentity = some .signerOwner) ∧
      (validateAndAuthenticatePendingProvisionData p m data).1 = .success ∧
      (approve p ui (validateAndAuthenticatePendingProvisionData p m data).2.1
        (validateAndAuthenticatePendingProvisionData p m data).2.2).1 = .success) :
    let validated := (validateAndAuthenticatePendingProvisionData p m data).2
    let answer := (approve p ui validated.1 validated.2).2
    ApprovedOwnerUnenroll p ui m data answer.1 answer.2 :=
  ⟨approves.1.1, approves.1.2, _, _, Prod.ext approves.2.1 rfl, Prod.ext approves.2.2 rfl⟩

def releasingUser : UserInterface where
  unenrollMessageBox := .ok none

/-- The local user agrees to the removal of an Owner, and everything is cleared. -/
theorem clears_released :
    let m := enrolledMachine keyedPlatform [(.signerOwner, 1)]
    let data := (initializePacket keyedPlatform .identity (.ok (unenrollPacket 1 1))).data
    ∃ auth record, ApprovedOwnerUnenroll keyedPlatform releasingUser m data auth record ∧
      ({ m with auth := auth } : Machine).hasUnenrollPermission record.authToken = .ok true ∧
      (({ m with auth := auth } : Machine).clearDfci keyedPlatform record.authToken).1 = .success := by
  have approved : ApprovedOwnerUnenroll keyedPlatform releasingUser (enrolledMachine keyedPlatform [(.signerOwner, 1)])
      (initializePacket keyedPlatform .identity (.ok (unenrollPacket 1 1))).data _ _ :=
    .of_success (by decide +kernel)
  have ungrouped : Ungrouped (enrolledMachine keyedPlatform [(.signerOwner, 1)]).settings.providers.groups := by
    intro id _ group mem
    cases mem
  refine ⟨_, _, approved, (approved.clears_iff (fun _ _ => rfl) ungrouped).mpr ⟨by decide +kernel, ?_⟩⟩
  exact fun signs => absurd signs (by decide +kernel)

/-- An unsigned list with `Dfci.ZtdUnenroll.Enable`, and a packet by which the Owner keeps the Owner key to itself. -/
def ownerOnlyPlatform : Platform :=
  { PermissionStore.packetPlatform [PermissionStore.permissionElement "Dfci.ZtdUnenroll.Enable" "243" "0"]
      (PermissionStore.permissionsPacket "1" "1" "True"
        [PermissionStore.permissionElement "Dfci.OwnerKey.Enum" "128" "128"]) with
    pkcs7Verify := keyedPlatform.pkcs7Verify }

def ownerOnlyMachine : Machine :=
  Runs.run (Machine.step ownerOnlyPlatform) (.blank .empty 0)
    [.boot { state := .optIn, certificate := .ok [9] }, .mailboxes confirmingUser confirmingUser Machine.ownerMailboxes]

def ztdReleasePacket : Packet := (initializePacket ownerOnlyPlatform .identity (.ok (unenrollPacket 1 9))).data

/-- The enrolment of the Owner has deleted the required entry of `Dfci.ZtdUnenroll.Enable` and left the one of the list.
That has the Owner, so the packet of Zero Touch is accepted, and then the clearing is denied. -/
theorem ztdRelease_denied :
    ownerOnlyMachine.Reachable ownerOnlyPlatform ∧ Ungrouped ownerOnlyMachine.settings.providers.groups ∧
      (∀ name data, ownerOnlyPlatform.setVariable name data = .success) ∧
      ∃ auth record, ApprovedOwnerUnenroll ownerOnlyPlatform decliningUser ownerOnlyMachine ztdReleasePacket auth record ∧
        ({ ownerOnlyMachine with auth := auth } : Machine).hasUnenrollPermission record.authToken = .ok false ∧
        (({ ownerOnlyMachine with auth := auth } : Machine).clearDfci ownerOnlyPlatform record.authToken).1 =
          .accessDenied := by
  have approved : ApprovedOwnerUnenroll ownerOnlyPlatform decliningUser ownerOnlyMachine ztdReleasePacket _ _ :=
    .of_success (by decide +kernel)
  have noGroups : ownerOnlyMachine.settings.providers.groups = [] := by
    decide +kernel
  refine ⟨⟨_, _, _, rfl⟩, ?_, fun _ _ => rfl, _, _, approved, by decide +kernel⟩
  rw [noGroups]
  exact fun _ _ _ => (by simp)

end Dfci
