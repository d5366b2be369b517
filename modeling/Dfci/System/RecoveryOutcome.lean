import Dfci.System.Recovery
import Dfci.System.Unenroll

/-! # What a successful recovery has done

`SetRecoveryResponse` calls `DoDfciRecovery` for the right response and returns `EFI_SUCCESS`, whatever became of
`ClearDFCI`. -/

namespace Dfci

open ByteFields

/-! ## When a recovery clears -/

/-- A modified store is saved if it fits, and if it is in the variable already or can be written. -/
theorem PermissionStore.saveToFlash_success_iff {p : Platform} {flash : Option Variable} {store : PermissionStore}
    (modified : store.modified = true) : (saveToFlash p flash store).1 = .success ↔ store.varSize ≤ maxSizeForVar ∧
      (sameInFlash flash store = true ∨
        p.setVariable .permissionStore (store.encode store.createdOn p.getTime) = .success) := by
  by_cases large : maxSizeForVar < store.varSize
  · simp [saveToFlash, modified, large, Nat.not_le.mpr large]
  · by_cases same : sameInFlash flash store = true
    · simp [saveToFlash, modified, large, same, Nat.le_of_not_lt large]
    · cases outcome : p.setVariable .permissionStore (store.encode store.createdOn p.getTime) with
      | success => simp [saveToFlash, modified, large, same, outcome, Nat.le_of_not_lt large]
      | error code => simp [saveToFlash, modified, large, same, outcome]

theorem CertStore.initializeProvisionedData_success_iff {p : Platform} {flash : Option Variable} {store : CertStore} :
    (initializeProvisionedData p flash store).1 = .success ↔
      p.setVariable .certificateStore store.cleared.encode = .success := by
  change (saveProvisionedData p _ store.cleared).1 = .success ↔ _
  rw [saveProvisionedData]
  cases p.setVariable .certificateStore store.cleared.encode with
  | success | error code => exact Iff.rfl

namespace Machine

/-- What a completed `ClearDFCI` leaves: no certificate of the Owner or a user in memory or in the variable, and the
permission store of a device that is not enrolled. -/
structure Unenrolled (p : Platform) (m : Machine) : Prop where
  memory : ∀ i < certZtdIndex, m.certs.certs i = .empty
  flash : ∀ var ∈ m.certFlash, ∀ i < certZtdIndex, ¬ CertStore.RecordsCert var i
  permissions : ∃ store, m.permissions.store = some store ∧ store.Agrees (PermissionStore.initPermStore p)

/-- A token can be made for the identity, it may unenroll, and the variables of the permissions and of the certificates
can be written. -/
structure RecoveryWorks (p : Platform) (m : Machine) (identity : Identity) : Prop where
  creates : m.auth.canCreateToken p = true
  permitted : ∃ store, m.permissions.store = some store ∧ ∃ id ∈ unenrollIds,
    PermissionStore.hasWritePermissions m.settings.providers.groups store identity id = true
  fits : (PermissionStore.initPermStore p).varSize ≤ PermissionStore.maxSizeForVar
  permissions : PermissionStore.sameInFlash m.permissions.flash (PermissionStore.initPermStore p) = true ∨
    p.setVariable .permissionStore ((PermissionStore.initPermStore p).encode
      (PermissionStore.initPermStore p).createdOn p.getTime) = .success
  certs : p.setVariable .certificateStore m.certs.cleared.encode = .success

section

variable {p : Platform} {m : Machine}

theorem mayClear_created_iff (p : Platform) (m : Machine) (identity : Identity) :
    let created := m.auth.createAuthTokenWithMapping p identity
    ({ m with auth := created.2 } : Machine).MayClear created.1 ↔
      m.auth.canCreateToken p = true ∧ ∃ store, m.permissions.store = some store ∧
        ∃ id ∈ unenrollIds,
          PermissionStore.hasWritePermissions m.settings.providers.groups store identity id = true := by
  intro created
  have stands : created.1 ≠ authTokenInvalid → created.2.getIdentityProperties created.1 = .ok identity :=
    AuthState.createAuthTokenWithMapping_stands rfl
  have valid : created.1 ≠ authTokenInvalid ↔ m.auth.canCreateToken p = true := by
    rcases AuthState.createAuthTokenWithMapping_mints p m.auth identity with
      ⟨cannot, invalid, _⟩ | ⟨can, mints⟩
    · exact iff_of_false (not_not.mpr invalid) (by simp [cannot])
    · exact iff_of_true (mints.valid _ (List.mem_singleton_self _)) can
  constructor
  · rintro ⟨isValid, permitted⟩
    refine ⟨valid.mp isValid, ?_⟩
    rw [hasUnenrollPermission_eq] at permitted
    simp only [stands isValid] at permitted
    cases isStore : m.permissions.store with
    | none => simp [isStore] at permitted
    | some store =>
      simp only [isStore, Except.ok.injEq, List.any_eq_true] at permitted
      exact ⟨store, rfl, permitted⟩
  · rintro ⟨can, store, isStore, permitted⟩
    refine ⟨valid.mpr can, ?_⟩
    rw [hasUnenrollPermission_eq]
    simp only [stands (valid.mpr can), isStore, Except.ok.injEq, List.any_eq_true]
    exact permitted

theorem doDfciRecovery_success_iff {identity : Identity} :
    (m.doDfciRecovery p identity).1 = .success ↔ m.RecoveryWorks p identity := by
  have may := mayClear_created_iff p m identity
  have saves : (PermissionState.initAndSave p m.permissions.flash).1 = .success ↔ _ :=
    PermissionStore.saveToFlash_success_iff (PermissionStore.initPermStore_modified p)
  have clears : (CertStore.initializeProvisionedData p m.certFlash m.certs).1 = .success ↔ _ :=
    CertStore.initializeProvisionedData_success_iff
  simp only [doDfciRecovery]
  generalize m.auth.createAuthTokenWithMapping p identity = created at may ⊢
  obtain ⟨token, auth⟩ := created
  have effect := clearDfci_effect p token { m with auth := auth }
  simp only at may ⊢
  generalize clearDfci p token { m with auth := auth } = result at effect
  cases effect with
  | refused code denied => exact iff_of_false (by simp) fun works => denied (may.mpr ⟨works.creates, works.permitted⟩)
  | permissionsFailed code perms _ fails =>
    refine iff_of_false (by simp) fun works => ?_
    have saved := saves.mpr ⟨works.fits, works.permissions⟩
    rw [fails] at saved
    cases saved
  | certsFailed code perms certs certFlash _ _ fails =>
    refine iff_of_false (by simp) fun works => ?_
    have cleared := clears.mpr works.certs
    rw [fails] at cleared
    cases cleared
  | cleared perms certs certFlash mayClear resets cleared =>
    obtain ⟨creates, permitted⟩ := may.mp mayClear
    obtain ⟨fits, writes⟩ := saves.mp (by rw [resets])
    exact iff_of_true rfl ⟨creates, permitted, fits, writes, clears.mp (by rw [cleared])⟩

theorem unenrolled_of_doDfciRecovery {identity : Identity} (succeeds : (m.doDfciRecovery p identity).1 = .success) :
    (m.doDfciRecovery p identity).2.Unenrolled p := by
  have writes := (doDfciRecovery_success_iff.mp succeeds).certs
  simp only [doDfciRecovery] at succeeds ⊢
  generalize m.auth.createAuthTokenWithMapping p identity = created at succeeds ⊢
  have effect := clearDfci_effect p created.1 { m with auth := created.2 }
  generalize clearDfci p created.1 { m with auth := created.2 } = result at effect succeeds
  cases effect with
  | refused | permissionsFailed | certsFailed => cases succeeds
  | cleared perms certs certFlash _ resets clears =>
    have empty : ∀ i < certZtdIndex, m.certs.cleared.certs i = .empty := by
      intro i before
      simp only [CertStore.cleared, CertStore.freeCertStore, if_neg (Fin.ne_of_lt before)]
    have saved := CertStore.initializeProvisionedData_eq m.certFlash m.certs writes
    rw [clears] at saved
    cases saved
    refine ⟨empty, ?_, ?_⟩
    · rintro _ ⟨⟩ i before ⟨records, _⟩
      apply records
      rw [CertStore.sizeField_encode _ (by rw [empty i before]; exact Nat.two_pow_pos 16), empty i before]
      rfl
    · obtain ⟨store, flash⟩ := perms
      simp only [PermissionState.initAndSave, PermissionState.save, Prod.mk.injEq, PermissionState.mk.injEq] at resets
      exact ⟨_, resets.2.1.symm, PermissionStore.saveToFlash_agrees p m.permissions.flash _⟩

end

end Machine

namespace RecoveryState

theorem length_key (challenge : RecoveryChallenge) : challenge.key.length = recoveryResponseSize := by
  rw [RecoveryChallenge.key, List.length_drop, challenge.nonce.property]
  rfl

structure ResponseAnswer.Unenrolled (p : Platform) (answer : ResponseAnswer) : Prop where
  completed : answer.recovery = some .success
  machine : answer.state.machine.Unenrolled p

/-- The response ends the session: it is the key of the challenge, and comes before the third wrong one. -/
def IsAccepted (state : RecoveryState) (response : Option (List Byte)) : Prop :=
  state.responseValidationCount < maxTriesForRecovery ∧
    ∃ challenge, state.challenge = some challenge ∧ response = some challenge.key

section

variable {p : Platform} {state : RecoveryState} {response : Option (List Byte)}

theorem setRecoveryResponse_of_accepted (accepted : state.IsAccepted response) :
    state.setRecoveryResponse p response =
      ⟨.success, some (state.doDfciRecovery p).1, (state.doDfciRecovery p).2⟩ := by
  obtain ⟨tries, challenge, active, rfl⟩ := accepted
  have effect := setRecoveryResponse_effect p (some challenge.key) state (Nat.le_of_lt tries)
  generalize state.setRecoveryResponse p (some challenge.key) = answer at effect
  cases effect with
  | ignored status notSuccess reason =>
    rcases reason with size | ⟨_, inactive⟩
    · exact absurd (length_key challenge) (size _ rfl)
    · rw [active] at inactive
      cases inactive
  | exceeded bytes isResponse size exceeded => omega
  | wrong status notSuccess bytes other isResponse size _ isOther differs =>
    rw [active] at isOther
    cases isOther
    cases isResponse
    exact absurd rfl differs
  | right => rfl

theorem accepted_of_success (succeeds : (state.setRecoveryResponse p response).status = .success) :
    state.IsAccepted response := by
  by_cases bounded : state.responseValidationCount ≤ maxTriesForRecovery
  · have effect := setRecoveryResponse_effect p response state bounded
    generalize state.setRecoveryResponse p response = answer at effect succeeds
    cases effect with
    | ignored status notSuccess => exact absurd succeeds notSuccess
    | exceeded => cases succeeds
    | wrong status notSuccess => exact absurd succeeds notSuccess
    | right challenge isResponse tries active => exact ⟨tries, challenge, active, isResponse⟩
  · -- a count that is never reached: the checks end before the challenge
    have tries : maxTriesForRecovery ≤ state.responseValidationCount := by omega
    have checks : state.checkResponse response = .invalidParameter ∨ state.checkResponse response = .exceeded := by
      cases response with
      | none => exact .inl rfl
      | some bytes => by_cases size : bytes.length ≠ recoveryResponseSize <;> simp [checkResponse, size, tries]
    rcases checks with invalid | exceeded
    · simp only [setRecoveryResponse, respond, invalid] at succeeds
      repeat' split at succeeds
      all_goals cases succeeds
    · simp only [setRecoveryResponse, respond, exceeded] at succeeds
      repeat' split at succeeds
      all_goals cases succeeds

theorem doDfciRecovery_unenrolled_iff :
    ResponseAnswer.Unenrolled p ⟨.success, some (state.doDfciRecovery p).1, (state.doDfciRecovery p).2⟩ ↔
      ∃ identity, state.recoveryId = some identity ∧ state.machine.RecoveryWorks p identity := by
  cases isId : state.recoveryId with
  | none =>
    refine iff_of_false ?_ (by rintro ⟨_, ⟨⟩, _⟩)
    rintro ⟨completed, _⟩
    simp [doDfciRecovery, isId, Machine.clearDfci] at completed
  | some identity =>
    have status : (state.doDfciRecovery p).1 = (state.machine.doDfciRecovery p identity).1 := by
      simp only [doDfciRecovery, isId]
    have m : (state.doDfciRecovery p).2.machine = (state.machine.doDfciRecovery p identity).2 := by
      simp only [doDfciRecovery, isId]
    constructor
    · rintro ⟨completed, _⟩
      rw [Option.some.injEq, status, Machine.doDfciRecovery_success_iff] at completed
      exact ⟨identity, rfl, completed⟩
    · rintro ⟨_, ⟨⟩, works⟩
      have succeeds := Machine.doDfciRecovery_success_iff.mpr works
      refine ⟨?_, ?_⟩
      · rw [status, succeeds]
      · rw [m]
        exact Machine.unenrolled_of_doDfciRecovery succeeds

end

theorem setRecoveryResponse_unenrolls_iff (p : Platform) (state : RecoveryState) (response : Option (List Byte)) :
    ((state.setRecoveryResponse p response).status = .success → (state.setRecoveryResponse p response).Unenrolled p) ↔
    (state.IsAccepted response →
      ∃ identity, state.recoveryId = some identity ∧ state.machine.RecoveryWorks p identity) := by
  rw [← doDfciRecovery_unenrolled_iff]
  constructor
  · intro unenrolls accepted
    rw [setRecoveryResponse_of_accepted accepted] at unenrolls
    exact unenrolls rfl
  · intro works succeeds
    have accepted := accepted_of_success succeeds
    rw [setRecoveryResponse_of_accepted accepted]
    exact works accepted

/-! ## A recovery that fails -/

def refusingPlatform : Platform :=
  { keyedPlatform with
    serialNumber := .ok [0x31, 0]
    productName := .ok [0x32, 0]
    manufacturer := .ok [0x33, 0]
    setVariable := fun name data =>
      if name = .permissionStore ∧ data.length = (PermissionStore.initPermStore keyedPlatform).varSize then
        .outOfResources
      else
        .success }

def ztdEnrolledMachine (p : Platform) : Machine :=
  Runs.run (Machine.step p) (.blank .empty 0)
    [.boot { state := .optIn, certificate := .ok [9] },
      .mailboxes confirmingUser confirmingUser (Machine.identityMailbox (enrollPacket 1 1 9))]

def sampleServices : RecoveryServices where
  nonce := .ok [.error 3, .ok ⟨List.replicate 64 7, rfl⟩]
  seed := .ok [.ok []]
  pkcs1v2Encrypt := fun cert _ _ => some cert

def sampleSession (p : Platform) : RecoveryState :=
  Runs.run (step p) (loaded (ztdEnrolledMachine p))
    [.getRecoveryPacket sampleServices Identity.signerZtd.bit]

/-- The response is right, and the call reports that DFCI is unenrolled. The Owner is still there. -/
theorem recovery_reports_success : (ztdEnrolledMachine refusingPlatform).Reachable refusingPlatform ∧
      let answer := (sampleSession refusingPlatform).setRecoveryResponse refusingPlatform (some (List.replicate 10 7))
      answer.status = .success ∧ answer.recovery = some .outOfResources ∧
        answer.state.machine.certs.provisionedCert .signerOwner = some [1] ∧ ¬ answer.Unenrolled refusingPlatform := by
  refine ⟨⟨_, _, _, rfl⟩, by decide +kernel, by decide +kernel, by decide +kernel, ?_⟩
  rintro ⟨completed, _⟩
  revert completed
  decide +kernel

end RecoveryState

end Dfci
