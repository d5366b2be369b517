import Dfci.Identity.Revocation
import Dfci.Manager.Reports

/-! # What makes a mailbox run wait

`EFI_MEDIA_CHANGED` takes a run to its early exit. It stands for one thing only, a packet that has to wait for the user:
no check, no decoder and no manager answers it, as long as `gRT->SetVariable` does not. -/

namespace Dfci

/-! ## The status codes of the checks -/

def NoWait {α : Type} (check : Except PacketError α) : Prop :=
  ∀ failure, check = .error failure → failure.status ≠ .mediaChanged

theorem NoWait.ok {α : Type} (value : α) : NoWait (.ok value) := by
  intro failure fails
  cases fails

theorem NoWait.error {α : Type} {failure : PacketError} (answers : failure.status ≠ .mediaChanged) :
    NoWait (.error failure : Except PacketError α) := by
  intro other fails
  cases fails
  exact answers

theorem checkTestSignature_noWait (p : Platform) (data : Packet) : NoWait (checkTestSignature p data) := by
  simp only [checkTestSignature]
  repeat' split
  · exact .error (by simp)
  · exact .error (by simp)
  · exact .error (by simp)
  · exact .ok _

theorem checkPendingProvisionData_noWait (p : Platform) (m : Machine) (identity : Identity)
    (data : Packet) : NoWait (checkPendingProvisionData p m identity data) := by
  simp only [checkPendingProvisionData, bind, Except.bind, throw, throwThe, MonadExceptOf.throw]
  repeat' split
  all_goals first
    | exact .ok _
    | exact .error (checkTestSignature_noWait p data _ ‹_›)
    | exact .error (by simp)

theorem checkHeader_noWait (data : Packet) : NoWait (checkHeader data) := by
  simp only [checkHeader, bind, Except.bind, throw, throwThe, MonadExceptOf.throw]
  repeat' split
  all_goals first
    | exact .ok _
    | exact .error (by simp)

theorem locateSignature_noWait (data : Packet) : NoWait (locateSignature data) := by
  simp only [locateSignature]
  repeat' split
  · exact .ok _
  · exact .error (by simp)
  · exact .error (by simp)
  · exact .ok _

theorem checkTarget_noWait (id : Except EfiStatus (List Byte)) (name : List Byte) (data : Packet) :
    NoWait (checkTarget id name data) := by
  simp only [checkTarget]
  repeat' split
  · exact .ok _
  · exact .error (by simp)
  · exact .ok _
  · exact .error (by simp)

theorem checkTargets_noWait (p : Platform) (data : Packet) : NoWait (checkTargets p data) := by
  simp only [checkTargets, bind, Except.bind]
  repeat' split
  all_goals first
    | exact checkTarget_noWait _ _ _
    | exact .error (checkTarget_noWait _ _ _ _ ‹_›)

theorem decodePacket_noWait (p : Platform) (data : Packet) : (decodePacket p data).1 ≠ .mediaChanged := by
  rw [decodePacket]
  split
  · rename_i failure fails
    exact checkHeader_noWait data failure fails
  · split
    · rename_i failure fails
      exact locateSignature_noWait _ failure fails
    · rename_i located _
      cases checks : checkTargets p located with
      | error failure => exact checkTargets_noWait p located failure checks
      | ok checked => exact (by simp [orFail])

theorem validateIdentityPacket_noWait (data : Packet) : validateIdentityPacket data ≠ .mediaChanged := by
  simp only [validateIdentityPacket]
  repeat' split
  all_goals simp

theorem localMayProvision_noWait (auth : AuthState) (data : Packet) (permMask : Mask) :
    (localMayProvision auth data permMask).1 ≠ .mediaChanged := by
  rw [localMayProvision]
  split
  · simp
  · simp

section

variable (p : Platform) (ui : UserInterface) (m : Machine) (data : Packet)

theorem validateAndAuthenticatePendingProvisionData_noWait :
    (validateAndAuthenticatePendingProvisionData p m data).1 ≠ .mediaChanged := by
  rw [validateAndAuthenticatePendingProvisionData]
  split
  · simp
  · simp only
    split
    · rename_i failure fails
      exact checkPendingProvisionData_noWait _ _ _ _ failure fails
    · split
      · exact localMayProvision_noWait _ _ _
      · split
        · simp
        · split
          · simp
          · exact localMayProvision_noWait _ _ _

theorem approve_noWait (auth : AuthState) : (approve p ui auth data).1 ≠ .mediaChanged := by
  have asked : ∀ cert size token,
      (localGetAnswerFromUser p ui cert size token auth).1 ≠ .mediaChanged := by
    intro cert size token
    simp only [localGetAnswerFromUser]
    repeat' split
    all_goals simp
  rw [approve]
  split
  · simp
  · have answers := asked data.payloadBytes data.payloadSize data.authToken
    generalize localGetAnswerFromUser p ui _ _ _ auth = answer at answers ⊢
    obtain ⟨status, token, after⟩ := answer
    cases status with
    | success => simp
    | error code => exact answers

end

/-! ## The status codes of the managers -/

namespace PermissionStore

theorem addRequiredPermissionEntry_noWait (store : PermissionStore) (id : SettingId) (pMask dMask : Mask) :
    (store.addRequiredPermissionEntry id pMask dMask).1 ≠ .mediaChanged := by
  simp only [addRequiredPermissionEntry, addPermissionEntry]
  repeat' split
  all_goals simp

theorem removeUnsignedPermissionEntries_noWait (p : Platform) (store : PermissionStore) :
    (removeUnsignedPermissionEntries p store).1 ≠ .mediaChanged := by
  have loop : ∀ elements (store : PermissionStore),
      (modifyUnsignedLoop p false elements store).1 ≠ .mediaChanged := by
    intro elements
    induction elements with
    | nil => simp [modifyUnsignedLoop]
    | cons element elements ih =>
      intro store
      rw [modifyUnsignedLoop]
      split
      · simp
      · simp only [Bool.false_eq_true, if_false]
        split
        · simp
        · split
          · simp
          · exact ih _
  rw [removeUnsignedPermissionEntries, modifyUnsignedPermissionEntries]
  split
  · simp
  · split
    · simp
    · exact loop _ _

theorem ownerEnrolled_noWait (p : Platform) (identity : Identity) (changeType : IdentityChangeType)
    (store : PermissionStore) : (store.ownerEnrolled p identity changeType).1 ≠ .mediaChanged := by
  simp only [ownerEnrolled]
  split
  · split
    · exact removeUnsignedPermissionEntries_noWait p _
    · exact addRequiredPermissionEntry_noWait store _ _ _
  · simp

end PermissionStore

theorem identityChange_noWait (p : Platform) (properties : Except EfiStatus Identity) (identity : Identity)
    (changeType : IdentityChangeType) (perms : PermissionState) :
    (perms.identityChange p properties identity changeType).1 ≠ .mediaChanged := by
  rw [PermissionState.identityChange]
  split
  · split
    · simp
    · simp
  · simp only [PermissionStore.identityChange]
    repeat' split
    · simp
    · simp
    · simp
    · exact PermissionStore.ownerEnrolled_noWait p identity changeType _

theorem hasUnenrollPermission_noWait {m : Machine} {token : AuthToken} {status : EfiStatus}
    (fails : m.hasUnenrollPermission token = .error status) : status ≠ .mediaChanged := by
  rw [Machine.hasUnenrollPermission_eq] at fails
  cases stored : m.permissions.store with
  | none =>
    rw [stored] at fails
    cases fails
    simp
  | some store =>
    rw [stored, AuthState.getIdentityProperties] at fails
    cases finds : m.auth.findListEntryByAuthToken token with
    | none =>
      rw [finds] at fails
      cases fails
      simp
    | some mapping =>
      rw [finds] at fails
      cases fails

section

variable {p : Platform} (stores : ∀ name bytes, p.setVariable name bytes ≠ .mediaChanged)
include stores

theorem permissions_save_noWait (perms : PermissionState) : (perms.save p).1 ≠ .mediaChanged := by
  rw [PermissionState.save]
  split
  · simp
  · simp only [PermissionStore.saveToFlash]
    repeat' split
    · simp
    · simp
    · simp
    · simp
    · rename_i code fails
      exact fails ▸ stores _ _

theorem saveProvisionedData_noWait (flash : Option Variable) (certs : CertStore) :
    (CertStore.saveProvisionedData p flash certs).1 ≠ .mediaChanged := by
  rw [CertStore.saveProvisionedData]
  split
  · simp
  · rename_i code fails
    exact fails ▸ stores _ _

theorem initializeProvisionedData_noWait (flash : Option Variable) (certs : CertStore) :
    (CertStore.initializeProvisionedData p flash certs).1 ≠ .mediaChanged :=
  saveProvisionedData_noWait stores _ _

theorem clearDfci_noWait (token : AuthToken) (m : Machine) : (m.clearDfci p token).1 ≠ .mediaChanged := by
  have settings : (m.systemSettingsAccessReset p token).1 ≠ .mediaChanged := by
    rw [Machine.systemSettingsAccessReset]
    split
    · rename_i status fails
      exact hasUnenrollPermission_noWait fails
    · simp
    · simp
  have perms : ∀ m : Machine, (m.resetPermissionsToDefault p token).1 ≠ .mediaChanged := by
    intro m
    rw [Machine.resetPermissionsToDefault]
    split
    · rename_i status fails
      exact hasUnenrollPermission_noWait fails
    · simp
    · exact permissions_save_noWait stores _
  rw [Machine.clearDfci]
  split
  · simp
  · generalize m.systemSettingsAccessReset p token = reset at settings ⊢
    obtain ⟨status, reset⟩ := reset
    cases status with
    | error code => exact settings
    | success =>
      have answers := perms reset
      simp only
      generalize reset.resetPermissionsToDefault p token = again at answers ⊢
      obtain ⟨status, again⟩ := again
      cases status with
      | error code => exact answers
      | success =>
        have clears := initializeProvisionedData_noWait stores again.certFlash again.certs
        simp only
        generalize CertStore.initializeProvisionedData p again.certFlash again.certs = cleared at clears ⊢
        split
        · exact clears
        · simp

theorem applyApproved_noWait (m : Machine) (identity : Identity) (data : Packet) :
    (applyApproved p m identity data).status ≠ .mediaChanged := by
  have provision : (applyProvisionData p m identity data).status ≠ .mediaChanged := by
    rw [applyProvisionData]
    split
    · exact clearDfci_noWait stores data.authToken m
    · split
      · simp
      · simp
  simp only [applyApproved]
  split
  · exact provision
  · generalize applyProvisionData p m identity data = applied
    have change := identityChange_noWait p (applied.machine.auth.getIdentityProperties applied.data.authToken)
      identity (identityChangeType m.certs identity data) applied.machine.permissions
    generalize applied.machine.permissions.identityChange p _ identity _ = answer at change ⊢
    obtain ⟨status, perms⟩ := answer
    cases status with
    | error code => exact change
    | success => simp

theorem applyNewIdentityPacket_noWait (ui : UserInterface) (m : Machine) (data : Packet) :
    (applyNewIdentityPacket p ui m data).status ≠ .mediaChanged := by
  rw [applyNewIdentityPacket, (IdentityApplied.cleanup_eq _).1, applyIdentitySteps]
  split
  · simp
  · have valid := validateIdentityPacket_noWait data
    generalize validateIdentityPacket data = status at valid ⊢
    cases status with
    | error code => exact valid
    | success =>
      have authenticates := validateAndAuthenticatePendingProvisionData_noWait p m data
      generalize validateAndAuthenticatePendingProvisionData p m data = answer at authenticates ⊢
      obtain ⟨status, auth, record⟩ := answer
      cases status with
      | error code => exact authenticates
      | success =>
        simp only
        split
        · simp
        · have approves := approve_noWait p ui record auth
          generalize approve p ui auth record = approval at approves ⊢
          obtain ⟨status, after, approved⟩ := approval
          cases status with
          | error code => exact approves
          | success =>
            simp only
            split
            · simp
            · exact applyApproved_noWait stores _ _ _

end

/-- While the user can be asked, an identity packet that is accepted does not wait. -/
theorem applyNewIdentityPacket_settles {p : Platform} {ui : UserInterface} (asks : ui.available = true)
    (m : Machine) (data : Packet) (succeeds : (applyNewIdentityPacket p ui m data).status = .success) :
    (applyNewIdentityPacket p ui m data).data.state ≠ .dataDelayedProcessing := by
  have cleaned := IdentityApplied.cleanup_eq (applyIdentitySteps p ui m data)
  rw [applyNewIdentityPacket, cleaned.1, applyIdentitySteps] at succeeds
  rw [applyNewIdentityPacket, cleaned.2.1, applyIdentitySteps]
  have available : ∀ record : Packet, ¬ (!ui.available && record.userConfirmationRequired) = true := by
    simp [asks]
  split at succeeds
  · cases succeeds
  · rename_i isNew
    rw [if_neg isNew]
    generalize validateIdentityPacket data = valid at succeeds ⊢
    cases valid with
    | error code => cases succeeds
    | success =>
      simp only at succeeds ⊢
      generalize validateAndAuthenticatePendingProvisionData p m data = answer at succeeds ⊢
      obtain ⟨status, auth, record⟩ := answer
      cases status with
      | error code => cases succeeds
      | success =>
        simp only [if_neg (available record)] at succeeds ⊢
        generalize approve p ui auth record = approval at succeeds ⊢
        obtain ⟨status, after, approved⟩ := approval
        cases status with
        | error code => cases succeeds
        | success =>
          simp only at succeeds ⊢
          cases named : approved.dfciIdentity with
          | none =>
            rw [named] at succeeds
            cases succeeds
          | some identity =>
            exact (PacketState.ne_of_isSettled (applyApproved_reports _ _ _ _).2).2

namespace Manager

structure Prompt (ui : UserInterface) (mgr : Manager) : Prop where
  asks : ui.available = true ∨ mgr.processingAtEndOfDxe = true
  decoded : ∀ box, box.isIdentity = true → (mgr.data box).packet.isSome = true →
    (mgr.boxes box).decodeStatus ≠ .mediaChanged

section

variable {p : Platform} {ui : UserInterface} {mgr : Manager}

theorem Prompt.follows {later : Manager} (prompt : Prompt ui mgr) (follows : later.Follows mgr)
    (same : later.processingAtEndOfDxe = mgr.processingAtEndOfDxe) : Prompt ui later := by
  refine ⟨same ▸ prompt.asks, fun box isIdentity present => ?_⟩
  obtain ⟨data, decodeStatus⟩ := follows box (atomic_of_isIdentity isIdentity)
  rw [decodeStatus]
  exact prompt.decoded box isIdentity (data.packet ▸ present)

theorem completePacket_processingAtEndOfDxe (applyStatus : EfiStatus) (box : MailBox) :
    (completePacket p applyStatus box mgr).processingAtEndOfDxe = mgr.processingAtEndOfDxe := by
  rw [completePacket_eq]
  split
  · rfl
  · simp only
    split <;> rfl

theorem Prompt.applies (other : UserInterface) (box : MailBox) (mgr : Manager) (prompt : Prompt ui mgr) :
    Prompt ui (processApplyPacket p other box mgr).2 :=
  prompt.follows (processApplyPacket_follows p other box mgr)
    (processApplyPacket_processingAtEndOfDxe p other box mgr)

theorem Prompt.completes (applyStatus : EfiStatus) (box : MailBox) (mgr : Manager) (prompt : Prompt ui mgr) :
    Prompt ui (completePacket p applyStatus box mgr) :=
  prompt.follows (completePacket_follows p box mgr applyStatus)
    (completePacket_processingAtEndOfDxe applyStatus box)

theorem prompt_allocateManagerData (asks : ui.available = true) (m : Machine)
    (read : MailBox → Except Nat (List Byte)) : Prompt ui (allocateManagerData p m read) := by
  refine ⟨.inl asks, fun box isIdentity present => ?_⟩
  simp only [allocateManagerData, Manager.data, initializePacket] at present ⊢
  cases received : read box with
  | error code =>
    rw [received] at present
    cases present
  | ok bytes =>
    simp only [isIdentity, if_true, decodeIdentityPacket]
    split
    · rename_i code record decodes
      have fails : (decodePacket p { Packet.allocated box.hdrSignature 2 with packet := some bytes }).1 ≠
          .mediaChanged := decodePacket_noWait p _
      rw [decodes] at fails
      exact fails
    · simp

variable (stores : ∀ name bytes, p.setVariable name bytes ≠ .mediaChanged)
include stores

section

variable (prompt : Prompt ui mgr) {box : MailBox} (isIdentity : box.isIdentity = true)
include prompt isIdentity

theorem Prompt.processApplyPacket : (processApplyPacket p ui box mgr).1 ≠ .mediaChanged := by
  have applied : applyPacket p ui box mgr.machine (mgr.data box) =
      let applied := applyNewIdentityPacket p ui mgr.machine (mgr.data box)
      ⟨applied.status, applied.machine, applied.data, none⟩ := by
    cases box <;> first | rfl | cases isIdentity
  rw [processApplyPacket_status, applied]
  simp only
  split
  · -- the packet waits: nobody can be asked, and EndOfDxe is still to come
    rename_i waits
    obtain ⟨succeeds, delayed, early⟩ := waits
    rcases prompt.asks with asks | late
    · exact absurd delayed (applyNewIdentityPacket_settles asks _ _ (EfiStatus.isError_eq_false.mp succeeds))
    · rw [late] at early
      cases early
  · exact applyNewIdentityPacket_noWait stores ui _ _

theorem Prompt.processPacket : (processPacket p ui box mgr).1 ≠ .mediaChanged := by
  have applies := prompt.processApplyPacket stores isIdentity
  have decoded := prompt.decoded box isIdentity
  rw [Manager.processPacket]
  split
  · simp
  · rename_i present
    cases status : (mgr.boxes box).decodeStatus with
    | error code =>
      rw [status] at decoded
      exact decoded (Option.isNone_eq_false_iff.mp (Bool.eq_false_of_not_eq_true present))
    | success =>
      simp only
      split
      · simp
      · exact applies

theorem Prompt.processUnEnrollPacket : (processUnEnrollPacket p ui box mgr).1 ≠ .mediaChanged := by
  have first := prompt.processPacket stores isIdentity
  have still : Prompt ui (Manager.processPacket p ui box mgr).2 :=
    processPacket_invariant (Prompt ui) Prompt.applies ui box prompt
  rw [Manager.processUnEnrollPacket]
  generalize Manager.processPacket p ui box mgr = answer at first still ⊢
  obtain ⟨status, after⟩ := answer
  cases status with
  | error code => exact first
  | success =>
    simp only
    split
    · exact still.processApplyPacket stores isIdentity
    · simp

end

theorem Prompt.processInOrder (prompt : Prompt ui mgr) (boxes : List MailBox) :
    (processInOrder p ui boxes mgr).1 ≠ .delayed := by
  induction boxes generalizing mgr with
  | nil => simp [Manager.processInOrder]
  | cons box boxes ih =>
    have first : box.isIdentity = true → (Manager.processPacket p ui box mgr).1 ≠ .mediaChanged :=
      fun isIdentity => prompt.processPacket stores isIdentity
    have still : Prompt ui (Manager.processPacket p ui box mgr).2 :=
      processPacket_invariant (Prompt ui) Prompt.applies ui box prompt
    rw [Manager.processInOrder]
    generalize Manager.processPacket p ui box mgr = answer at first still ⊢
    obtain ⟨status, after⟩ := answer
    cases status with
    | success => exact ih still
    | error code =>
      simp only
      split
      · rename_i waits
        exact absurd waits.1 (first waits.2)
      · simp

theorem Prompt.processUnEnrolls (prompt : Prompt ui mgr) {boxes : List MailBox}
    (identities : ∀ box ∈ boxes, box.isIdentity = true) : (processUnEnrolls p ui boxes mgr).1 ≠ .delayed := by
  induction boxes generalizing mgr with
  | nil => simp [Manager.processUnEnrolls]
  | cons box boxes ih =>
    obtain ⟨isIdentity, identities⟩ := List.forall_mem_cons.mp identities
    have first := prompt.processUnEnrollPacket stores isIdentity
    have still : Prompt ui (Manager.processUnEnrollPacket p ui box mgr).2 :=
      processUnEnrollPacket_invariant (Prompt ui) Prompt.applies (fun _ held => ⟨held.asks, held.decoded⟩) ui box prompt
    rw [Manager.processUnEnrolls]
    split
    · generalize Manager.processUnEnrollPacket p ui box mgr = answer at first still ⊢
      obtain ⟨status, after⟩ := answer
      simp only
      rw [if_neg first]
      exact ih (still.completes status box after) identities
    · exact ih prompt identities

/-- A run that nothing makes wait reaches its final exit. -/
theorem Prompt.processMailBoxes (prompt : Prompt ui mgr) : (processMailBoxes p ui mgr).1 ≠ .delayed := by
  have inOrder := prompt.processInOrder stores atomicBoxes
  have still : Prompt ui (Manager.processInOrder p ui atomicBoxes mgr).2 :=
    processInOrder_invariant (Prompt ui) Prompt.applies ui atomicBoxes prompt
  have completions : ∀ lkgStatus after, Prompt ui after →
      (processCompletions p ui lkgStatus after).1 ≠ .delayed := by
    intro lkgStatus after held
    have settings : ∀ box (mgr : Manager), Prompt ui mgr → Prompt ui (processSettings p ui box mgr) :=
      fun box _ held => Prompt.completes _ box _ (processPacket_invariant (Prompt ui) Prompt.applies ui box held)
    have atomic : Prompt ui (completeAtomic p lkgStatus after) :=
      completeAtomic_invariant (Prompt ui) Prompt.completes lkgStatus held
    exact (settings .settings2 _ (settings .settings _ atomic)).processUnEnrolls stores (by decide)
  rw [Manager.processMailBoxes]
  generalize Manager.processInOrder p ui atomicBoxes mgr = answer at inOrder still ⊢
  obtain ⟨ending, after⟩ := answer
  cases ending with
  | delayed => exact absurd rfl inOrder
  | completed => exact completions .success after still
  | failed code => exact completions (.error code) after still

end

end Manager

end Dfci
