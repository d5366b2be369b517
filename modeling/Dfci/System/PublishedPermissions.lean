import Dfci.Permission.AntiRollback
import Dfci.Permission.CurrentXml
import Dfci.System.Synced

/-! # The published permissions over whole runs

The document is written at the first boot, when the permissions are reset and when a permission packet is committed.
Between two of these the store in memory can change, and what is published is then about the one in the variable. -/

namespace Dfci

open PermissionState PermissionStore

/-- The call of `ClearDFCI` that `ApplyNewIdentityPacket` makes, if it makes one: on which machine, and with which
token. -/
def clearCall (p : Platform) (ui : UserInterface) (m : Machine) (data : Packet) :
    Option (Machine × AuthToken) :=
  if data.state ≠ .dataPresent then
    none
  else
    match validateIdentityPacket data with
    | .error _ => none
    | .success =>
      match validateAndAuthenticatePendingProvisionData p m data with
      | (.error _, _, _) => none
      | (.success, auth, data) =>
        if !ui.available && data.userConfirmationRequired then
          none
        else
          match approve p ui auth data with
          | (.error _, _, _) => none
          | (.success, auth, data) =>
            if data.payloadSize = 0 ∧ data.dfciIdentity = some .signerOwner then
              some ({ m with auth := auth }, data.authToken)
            else
              none

namespace Machine

section

variable (p : Platform) (publisher : PermissionPublisher) (m : Machine)

/-- What `ResetPermissionsToDefault` publishes, whether or not its store is saved. -/
def publishReset (token : AuthToken) (published : Option PublishedPermissions) : Option PublishedPermissions :=
  match m.hasUnenrollPermission token with
  | .ok true =>
    (populateCurrentPermissions p publisher true (initAndSave p m.permissions.flash).2.store published).2
  | _ => published

/-- What `ClearDFCI` publishes, if it comes to the permissions. -/
def publishClear (token : AuthToken) (published : Option PublishedPermissions) : Option PublishedPermissions :=
  if token = authTokenInvalid then
    published
  else
    match m.systemSettingsAccessReset p token with
    | (.error _, _) => published
    | (.success, m) => m.publishReset p publisher token published

/-- What is published while a packet is applied or completed. The permission manager's `LKG_Handler` publishes what it has
saved. -/
def publishStep (published : Option PublishedPermissions) : PacketStep → Option PublishedPermissions
  | .apply ui box data =>
    if box.isIdentity then
      match clearCall p ui m data with
      | none => published
      | some (cleared, token) => cleared.publishClear p publisher token published
    else
      published
  | .complete op box data =>
    if box.isPermissions ∧ data.lkgDirty ∧ op = .commit ∧ (m.permissions.save p).1 = .success then
      (populateCurrentPermissions p publisher true (m.permissions.save p).2.store published).2
    else
      published

end

end Machine

structure PublishingMachine where
  machine : Machine
  published : Option PublishedPermissions

namespace PublishingMachine

section

variable (p : Platform) (publisher : PermissionPublisher) (state : PublishingMachine)

def take (packetStep : PacketStep) : PublishingMachine where
  machine := state.machine.take p packetStep
  published := state.machine.publishStep p publisher state.published packetStep

def step : MachineEvent → PublishingMachine
  | .boot zeroTouch =>
    let booted := state.machine.boot p zeroTouch
    ⟨booted, (populateCurrentPermissions p publisher false booted.permissions.store state.published).2⟩
  | .mailboxes early late read =>
    Runs.run (take p publisher) state (state.machine.mailboxesSteps p early late read)
  | .recovery recoveryId =>
    let started := state.machine.auth.createAuthTokenWithMapping p recoveryId
    ⟨(state.machine.doDfciRecovery p recoveryId).2,
      ({ state.machine with auth := started.2 } : Machine).publishClear p publisher started.1 state.published⟩
  | .resetPermissions token =>
    ⟨(state.machine.resetPermissionsToDefault p token).2,
      state.machine.publishReset p publisher token state.published⟩
  | event => ⟨state.machine.step p event, state.published⟩

end

section

variable {p : Platform} {publisher : PermissionPublisher}

theorem run_take_machine (state : PublishingMachine) (steps : List PacketStep) :
    (Runs.run (take p publisher) state steps).machine = Runs.run (Machine.take p) state.machine steps := by
  induction steps generalizing state with
  | nil => rfl
  | cons packetStep steps ih => exact ih (state.take p publisher packetStep)

/-- Publishing has no effect on the machine. -/
theorem step_machine (state : PublishingMachine) (event : MachineEvent) :
    (state.step p publisher event).machine = state.machine.step p event := by
  cases event with
  | mailboxes early late read =>
    rw [step, run_take_machine, Machine.run_mailboxesSteps]
    rfl
  | boot | recovery | authWithPW | authWithSignedData | disposeAuthToken | setSetting | resetSettings
  | resetPermissions => rfl

end

end PublishingMachine

/-! ## Where `ClearDFCI` is called -/

section

variable (p : Platform) (m : Machine) {data : Packet}

/-- What applying an identity packet does to the permissions: without a call of `ClearDFCI` at most what `IdentityChange`
does, and with one what that call does. -/
inductive CallEffect : Option (Machine × AuthToken) → PermissionState → Prop
  | kept : CallEffect none m.permissions
  | changed (properties : Except EfiStatus Identity) (identity : Identity) (changeType : IdentityChangeType) :
      CallEffect none (m.permissions.identityChange p properties identity changeType).2
  | cleared (auth : AuthState) (token : AuthToken) :
      CallEffect (some ({ m with auth := auth }, token))
        (({ m with auth := auth } : Machine).clearDfci p token).2.permissions

variable {p m}

theorem applyApproved_clears (auth : AuthState) (unenroll : data.payloadSize = 0) :
    (applyApproved p { m with auth := auth } .signerOwner data).machine.permissions =
      (({ m with auth := auth } : Machine).clearDfci p data.authToken).2.permissions := by
  have type : ∀ certs, identityChangeType certs .signerOwner data = .unenroll := fun _ => if_pos unenroll
  simp only [applyApproved, applyProvisionData, unenroll, and_self, if_true, type, identityChange_unenroll]
  split <;> rfl

theorem applyApproved_changes (auth : AuthState) {identity : Identity}
    (kept : ¬ (data.payloadSize = 0 ∧ identity = .signerOwner)) : CallEffect p m none
      (applyApproved p { m with auth := auth } identity data).machine.permissions := by
  simp only [applyApproved, applyProvisionData, if_neg kept]
  cases identity.toCertIndex with
  | none => exact .kept
  | some i =>
    simp only [EfiStatus.isError_success, Bool.false_eq_true, if_false]
    generalize auth.getIdentityProperties data.authToken = properties
    generalize identityChangeType m.certs identity data = changeType
    have effect : CallEffect p m none
        (m.permissions.identityChange p properties identity changeType).2 :=
      .changed properties identity changeType
    generalize m.permissions.identityChange p properties identity changeType = answer at effect
    obtain ⟨status, perms⟩ := answer
    cases status <;> exact effect

variable (p m)

theorem applyIdentitySteps_calls (ui : UserInterface) (data : Packet) : CallEffect p m (clearCall p ui m data)
      (applyIdentitySteps p ui m data).machine.permissions := by
  rw [applyIdentitySteps, clearCall]
  by_cases present : data.state = .dataPresent
  · rw [if_neg (not_not.mpr present), if_neg (not_not.mpr present)]
    cases validateIdentityPacket data with
    | error code => exact .kept
    | success =>
      simp only
      generalize validateAndAuthenticatePendingProvisionData p m data = checked
      obtain ⟨status, auth, checkedData⟩ := checked
      cases status with
      | error code => exact .kept
      | success =>
        simp only
        by_cases waits : (!ui.available && checkedData.userConfirmationRequired) = true
        · rw [if_pos waits, if_pos waits]
          exact .kept
        · rw [if_neg waits, if_neg waits]
          generalize approve p ui auth checkedData = approved
          obtain ⟨status, auth, approvedData⟩ := approved
          cases status with
          | error code => exact .kept
          | success =>
            simp only
            cases isIdentity : approvedData.dfciIdentity with
            | none => simpa using CallEffect.kept
            | some identity =>
              by_cases clears : approvedData.payloadSize = 0 ∧ identity = .signerOwner
              · obtain ⟨unenroll, rfl⟩ := clears
                rw [if_pos ⟨unenroll, rfl⟩]
                simp only
                rw [applyApproved_clears auth unenroll]
                exact .cleared auth _
              · rw [if_neg fun both => clears ⟨both.1, Option.some.inj both.2⟩]
                exact applyApproved_changes auth clears
  · rw [if_pos present, if_pos present]
    exact .kept

theorem applyNewIdentityPacket_calls (ui : UserInterface) (data : Packet) : CallEffect p m (clearCall p ui m data)
      (applyNewIdentityPacket p ui m data).machine.permissions := by
  have effect := applyIdentitySteps_calls p m ui data
  rw [applyNewIdentityPacket, IdentityApplied.cleanup]
  split <;> exact effect

end

/-! ## What is published is what is in the variable -/

/-- The number in the `LowestSupportedVersion` element of a packet's document. -/
def PermissionStore.packetLsv (p : Platform) (data : Packet) : Option Nat := do
  let packet ← (readPacketNode p data.payloadText).toOption
  let lsvNode ← packet.findFirstChildNodeByName PermissionXml.lsvElementName
  some lsvNode.value.decimalToUintn

/-- A packet raises the `Lsv` to the one that its document names. -/
theorem PermissionStore.applyPermissions_lsv {p : Platform} {store : PermissionStore} {v1Mode : Bool}
    {identity : Identity} {data : Packet} {applied : AppliedPermissions}
    (applies : store.applyPermissions p v1Mode identity data.payloadText = .ok applied) :
    ∃ lsv, packetLsv p data = some lsv ∧ applied.store.lsv = max store.lsv lsv := by
  obtain ⟨packet, _, lsvNode, readsPacket, _, found, _, raised⟩ := applyPermissions_versions applies
  exact ⟨lsvNode.value.decimalToUintn, by simp [packetLsv, readsPacket, found, Except.toOption], raised⟩

/-- The published document is that of the store in the variable, and no `Lsv` is above zero. -/
structure Announced (p : Platform) (perms : PermissionState) (published : Option PublishedPermissions) :
    Prop where
  own : OwnAttributes perms.flash
  memory : ∀ store, perms.store = some store → store.lsv = 0
  flash : ∃ store, Persisted p perms.flash store ∧ store.lsv = 0 ∧ Announces published store.current

namespace Announced

section

variable {p : Platform} {perms : PermissionState} {published : Option PublishedPermissions}

/-- With memory and variable in agreement, the document describes the store in force. -/
theorem inForce (announced : Announced p perms published) (synced : Synced p perms) :
    ∃ store, perms.store = some store ∧ Announces published store.inForce := by
  obtain ⟨store, holds⟩ := synced
  obtain ⟨current, isCurrent, agrees⟩ := holds.memory
  obtain ⟨saved, persisted, _, announces⟩ := announced.flash
  refine ⟨current, isCurrent, ?_⟩
  rw [inForce_eq_current (announced.memory current isCurrent), agrees.current, (holds.flash.agrees persisted).current]
  exact announces

theorem of_holds {store : PermissionStore} (holds : Holds p perms store) (unversioned : store.lsv = 0)
    (announces : Announces published store.current) : Announced p perms published := by
  refine ⟨holds.sound.own, ?_, store, holds.flash, unversioned, announces⟩
  intro current isCurrent
  obtain ⟨held, isHeld, agrees⟩ := holds.memory
  cases isHeld.symm.trans isCurrent
  exact agrees.lsv.trans unversioned

theorem reload (announced : Announced p perms published) : Announced p (perms.reload p).2 published := by
  obtain ⟨store, persisted, unversioned, announces⟩ := announced.flash
  exact of_holds (Holds.reload announced.own persisted) unversioned announces

theorem identityChange (announced : Announced p perms published) (properties : Except EfiStatus Identity)
    (certIdentity : Identity) (changeType : IdentityChangeType) :
    Announced p (perms.identityChange p properties certIdentity changeType).2 published := by
  rw [PermissionState.identityChange]
  split
  · exact announced
  · rename_i store isStore
    refine ⟨announced.own, ?_, announced.flash⟩
    intro changed isChanged
    cases isChanged
    exact (identityChange_sameVersions properties certIdentity changeType store).lsv.trans
      (announced.memory store isStore)

theorem packet (announced : Announced p perms published) (certs : CertStore) (auth : AuthState)
    {data : Packet} (unversioned : ∀ lsv, packetLsv p data = some lsv → lsv = 0) :
    Announced p (applyNewPermissionsPacket p certs auth perms data).permissions published := by
  change Announced p (PermissionState.step p perms (.packet certs auth data)) published
  rcases step_packet p perms certs auth data with
    same | ⟨_, _, _, _, _, _, reloaded⟩ | ⟨_, store, applied, _, isStore, applies, replaced⟩
  · rw [same]
    exact announced
  · rw [reloaded]
    exact announced.reload
  · rw [replaced]
    refine ⟨announced.own, ?_, announced.flash⟩
    intro changed isChanged
    cases isChanged
    obtain ⟨lsv, named, raised⟩ := applyPermissions_lsv applies
    change applied.store.lsv = 0
    rw [raised, announced.memory store isStore, unversioned lsv named]
    rfl

/-- Starting over leaves the initial store in the variable. -/
theorem of_initAndSave {flash : Option Variable} (own : OwnAttributes flash)
    (saves : (initAndSave p flash).1 = .success) (announces : Announces published (initPermStore p).current) :
    Announced p (initAndSave p flash).2 published :=
  of_holds (holds_initAndSave own saves) (initPermStore_new p).2 announces

/-- A boot with an Owner loads what the document is about. One without starts over, and does not publish again. -/
theorem boot (announced : Announced p perms published)
    (saves : (initAndSave p perms.flash).1 = .success) {ownerEnrolled : Bool}
    (matching : ownerEnrolled = true ∨ Announces published (initPermStore p).current) :
    Announced p (PermissionState.boot p ownerEnrolled perms.flash) published := by
  cases ownerEnrolled with
  | true =>
    obtain ⟨store, persisted, unversioned, announces⟩ := announced.flash
    exact of_holds (holds_boot announced.own persisted) unversioned announces
  | false =>
    obtain enrolled | initial := matching
    · cases enrolled
    · exact of_initAndSave announced.own saves initial

variable {publisher : PermissionPublisher} (time : p.getTimeStatus = .success)
  (sets : ∀ tree, publisher.setVariable tree = .success)
include time sets

omit perms in
theorem reset {flash : Option Variable} (own : OwnAttributes flash) (saves : (initAndSave p flash).1 = .success)
    (published : Option PublishedPermissions) : Announced p (initAndSave p flash).2
      (populateCurrentPermissions p publisher true (initAndSave p flash).2.store published).2 := by
  have holds := holds_initAndSave own saves
  obtain ⟨store, isStore, agrees⟩ := holds.memory
  refine of_initAndSave own saves ?_
  rw [isStore, ← agrees.current]
  exact populateCurrentPermissions_publishes time sets (.inl rfl) store

omit perms in
/-- The first boot publishes the store that it starts from. -/
theorem firstBoot (saves : ∀ flash, (initAndSave p flash).1 = .success) {flash : Option Variable}
    (own : OwnAttributes flash) (unversioned : persistedLsv flash = 0) (missing : inPlace published = false)
    (ownerEnrolled : Bool) : Announced p (PermissionState.boot p ownerEnrolled flash)
      (populateCurrentPermissions p publisher false (PermissionState.boot p ownerEnrolled flash).store
        published).2 := by
  obtain ⟨store, found, holds⟩ := boot_holds saves own ownerEnrolled
  have isZero : store.lsv = 0 := by
    obtain reads | rfl := found
    · exact (readFlash_versions reads).2.trans unversioned
    · exact (initPermStore_new p).2
  obtain ⟨current, isCurrent, agrees⟩ := holds.memory
  refine of_holds holds isZero ?_
  rw [isCurrent, ← agrees.current]
  exact populateCurrentPermissions_publishes time sets (.inr missing) current

/-- The commit of a store that is marked as changed, or that is in the variable already. -/
theorem commit (announced : Announced p perms published) (saves : (perms.save p).1 = .success)
    (faithful : Modified perms ∨ Synced p perms) : Announced p (perms.save p).2
      (populateCurrentPermissions p publisher true (perms.save p).2.store published).2 := by
  have saved : ∃ store current, perms.store = some store ∧ (perms.save p).2.store = some current ∧
      current.Agrees store ∧ OwnAttributes (perms.save p).2.flash ∧
      Persisted p (perms.save p).2.flash store := by
    rcases faithful with ⟨store, isStore, modified⟩ | ⟨held, holds⟩
    · simp only [PermissionState.save, isStore] at saves ⊢
      exact ⟨store, _, rfl, rfl, saveToFlash_agrees p perms.flash store,
        saveToFlash_ownAttributes p announced.own store, saveToFlash_persisted announced.own modified saves⟩
    · obtain ⟨store, isStore, agrees⟩ := holds.memory
      obtain ⟨current, isCurrent, agreesAfter⟩ := holds.save.memory
      exact ⟨store, current, isStore, isCurrent, agreesAfter.trans agrees.symm, holds.save.sound.own,
        holds.save.flash.congr agrees.symm⟩
  obtain ⟨store, current, isStore, isCurrent, agrees, own, persisted⟩ := saved
  have unversioned := announced.memory store isStore
  refine ⟨own, ?_, store, persisted, unversioned, ?_⟩
  · intro after isAfter
    cases isCurrent.symm.trans isAfter
    exact agrees.lsv.trans unversioned
  · rw [isCurrent, ← agrees.current]
    exact populateCurrentPermissions_publishes time sets (.inl rfl) current

end

end Announced

/-! ## The steps of a mailbox run -/

namespace PacketStep

/-- A permission packet, if it is one, whose document names no `Lsv` above zero. -/
def NamesNoLsv (p : Platform) : PacketStep → Prop
  | .apply _ box data => box.isPermissions = true → ∀ lsv, packetLsv p data = some lsv → lsv = 0
  | .complete .. => True

instance (p : Platform) (packetStep : PacketStep) : Decidable (packetStep.NamesNoLsv p) :=
  match packetStep with
  | .apply _ box data =>
    decidable_of_iff (box.isPermissions = true → (packetLsv p data).all (fun lsv => lsv == 0) = true) (by
      simp [NamesNoLsv, Option.all_eq_true])
  | .complete .. => inferInstanceAs (Decidable True)

end PacketStep

def Machine.Faithful (p : Platform) (m : Machine) : PacketStep → Prop
  | .apply .. => True
  | .complete op box data =>
    op = .commit → box.isPermissions = true → data.lkgDirty = true →
      Modified m.permissions ∨ Synced p m.permissions

section

variable {p : Platform} {publisher : PermissionPublisher} (time : p.getTimeStatus = .success)
  (sets : ∀ tree, publisher.setVariable tree = .success) (saves : ∀ flash, (initAndSave p flash).1 = .success)
include time sets saves

section

variable {m : Machine} {published : Option PublishedPermissions}
  (announced : Announced p m.permissions published)
include announced

theorem announced_publishReset (token : AuthToken) : Announced p (m.resetPermissionsToDefault p token).2.permissions
      (m.publishReset p publisher token published) := by
  rw [Machine.resetPermissionsToDefault, Machine.publishReset]
  cases m.hasUnenrollPermission token with
  | error status => exact announced
  | ok permitted =>
    cases permitted with
    | false => exact announced
    | true => exact Announced.reset time sets announced.own (saves _) published

theorem announced_publishClear (token : AuthToken) : Announced p (m.clearDfci p token).2.permissions
      (m.publishClear p publisher token published) := by
  rw [Machine.clearDfci, Machine.publishClear]
  split
  · exact announced
  · have settings : Announced p (m.systemSettingsAccessReset p token).2.permissions published := by
      rw [Machine.systemSettingsAccessReset]
      split <;> exact announced
    generalize m.systemSettingsAccessReset p token = answer at settings
    obtain ⟨status, reset⟩ := answer
    cases status with
    | error code => exact settings
    | success =>
      have perms := announced_publishReset time sets saves settings token
      simp only
      generalize reset.resetPermissionsToDefault p token = answer at perms
      obtain ⟨status, cleared⟩ := answer
      cases status with
      | error code => exact perms
      | success =>
        simp only
        split <;> exact perms

theorem announced_identity (ui : UserInterface) (box : MailBox) (isIdentity : box.isIdentity = true) (data : Packet) :
    Announced p (applyNewIdentityPacket p ui m data).machine.permissions
      (m.publishStep p publisher published (.apply ui box data)) := by
  have effect := applyNewIdentityPacket_calls p m ui data
  simp only [Machine.publishStep, isIdentity, if_true]
  generalize (applyNewIdentityPacket p ui m data).machine.permissions = perms at effect
  generalize clearCall p ui m data = call at effect
  cases effect with
  | kept => exact announced
  | changed properties identity changeType => exact announced.identityChange properties identity changeType
  | cleared auth token =>
    have before : Announced p ({ m with auth := auth } : Machine).permissions published := announced
    exact announced_publishClear time sets saves before token

end

omit saves in
theorem announced_lkg {m : Machine} {published : Option PublishedPermissions}
    (announced : Announced p m.permissions published) {op : LkgOperation} (box : MailBox)
    (isPermissions : box.isPermissions = true) {data : Packet} (faithful : m.Faithful p (.complete op box data)) :
    Announced p (permissionsLkgHandler p op m.permissions data).2.1
      (m.publishStep p publisher published (.complete op box data)) := by
  have handled : (permissionsLkgHandler p op m.permissions data).2.1 = _ :=
    step_lkg p m.permissions op data
  rw [handled, Machine.publishStep]
  by_cases dirty : data.lkgDirty = true
  · rw [if_pos dirty]
    by_cases commits : op = .commit ∧ (m.permissions.save p).1 = .success
    · rw [if_pos commits, if_pos ⟨isPermissions, dirty, commits⟩]
      exact announced.commit time sets commits.2 (faithful commits.1 isPermissions dirty)
    · rw [if_neg commits, if_neg fun all => commits all.2.2]
      exact announced.reload
  · rw [if_neg dirty, if_neg fun all => dirty all.2.1]
    exact announced

/-- One step of a mailbox run keeps the document and the variable together. -/
theorem announced_take {state : PublishingMachine} {packetStep : PacketStep}
    (announced : Announced p state.machine.permissions state.published)
    (unversioned : packetStep.NamesNoLsv p) (faithful : state.machine.Faithful p packetStep) :
    Announced p (state.take p publisher packetStep).machine.permissions
      (state.take p publisher packetStep).published := by
  cases packetStep with
  | apply ui box data =>
    cases box with
    | identity => exact announced_identity time sets saves announced ui .identity rfl data
    | identity2 => exact announced_identity time sets saves announced ui .identity2 rfl data
    | permissions | permissions2 => exact announced.packet _ _ (unversioned rfl)
    | settings | settings2 => exact announced
  | complete op box data =>
    have identity : (identityLkgHandler p op state.machine data).machine.permissions =
        state.machine.permissions := (identityLkgHandler_frame p op state.machine data).2.1
    cases box with
    | identity | identity2 =>
      change Announced p (identityLkgHandler p op state.machine data).machine.permissions _
      rw [identity]
      exact announced
    | permissions => exact announced_lkg time sets announced .permissions rfl faithful
    | permissions2 => exact announced_lkg time sets announced .permissions2 rfl faithful
    | settings | settings2 => exact announced

end

/-! ## Commits find what they save -/

namespace PacketStep

def NoCommit : PacketStep → Prop
  | .apply .. => True
  | .complete op box _ => op = .commit → box.isPermissions = false

theorem noCommit_of_box {packetStep : PacketStep} (other : packetStep.box.isPermissions = false) :
    packetStep.NoCommit := by
  cases packetStep with
  | apply => trivial
  | complete => exact fun _ => other

theorem NoCommit.faithful {packetStep : PacketStep} (noCommit : packetStep.NoCommit) (p : Platform)
    (m : Machine) : m.Faithful p packetStep := by
  cases packetStep with
  | apply => trivial
  | complete op box data =>
    intro commits isPermissions
    cases (noCommit commits).symm.trans isPermissions

end PacketStep

namespace Manager

section

variable {p : Platform} {mgr : Manager}

theorem noCommit_packetSteps {ui : UserInterface} {box : MailBox} :
    ∀ packetStep ∈ packetSteps ui box mgr, packetStep.NoCommit := by
  rw [packetSteps]
  split
  · exact List.forall_mem_nil _
  · split
    · exact List.forall_mem_nil _
    · split
      · exact List.forall_mem_nil _
      · exact List.forall_mem_singleton.mpr trivial

theorem noCommit_inOrderSteps {ui : UserInterface} {boxes : List MailBox} :
    ∀ packetStep ∈ inOrderSteps p ui boxes mgr, packetStep.NoCommit := by
  induction boxes generalizing mgr with
  | nil => exact List.forall_mem_nil _
  | cons box boxes ih =>
    rw [inOrderSteps, List.forall_mem_append]
    refine ⟨noCommit_packetSteps, ?_⟩
    split
    · exact ih
    · exact List.forall_mem_nil _

theorem faithful_of_noCommit {steps : List PacketStep} (noCommit : ∀ packetStep ∈ steps, packetStep.NoCommit)
    (m : Machine) : Runs.Guarded (Machine.take p) (Machine.Faithful p) m steps := by
  apply Runs.guarded_of_forall
  intro packetStep mem m
  exact (noCommit packetStep mem).faithful p m

/-- A permission packet is completed: what it commits is in the store, and the store is marked or saved. -/
theorem faithful_completeSteps {applyStatus : EfiStatus} {box : MailBox}
    (commits : applyStatus = .success → (mgr.data box).packet.isSome = true → (mgr.data box).lkgDirty = true →
      Modified mgr.machine.permissions ∨ Synced p mgr.machine.permissions) :
    Runs.Guarded (Machine.take p) (Machine.Faithful p) mgr.machine (completeSteps applyStatus box mgr) := by
  rw [completeSteps]
  split
  · trivial
  · rename_i isPacket
    refine ⟨?_, trivial⟩
    intro op _ dirty
    rw [completedData_lkgDirty] at dirty
    refine commits ?_ (Option.isNone_eq_false_iff.mp (Bool.eq_false_of_not_eq_true isPacket)) dirty
    cases applyStatus with
    | success => rfl
    | error code => cases op

def Completable (p : Platform) (mgr : Manager) : Prop :=
  Phase p mgr ∨ Synced p mgr.machine.permissions

theorem faithful_completeAtomic {lkgStatus : EfiStatus} (completable : lkgStatus = .success → Completable p mgr) :
    Runs.Guarded (Machine.take p) (Machine.Faithful p) mgr.machine (completeAtomicSteps p lkgStatus mgr) := by
  have first : Runs.run (Machine.take p) mgr.machine (completeSteps lkgStatus .permissions2 mgr) =
      (completePacket p lkgStatus .permissions2 mgr).machine :=
    (Spells.traces p).complete lkgStatus .permissions2 mgr
  simp only [completeAtomicSteps]
  rw [List.append_assoc, List.append_assoc, Runs.guarded_append, Runs.guarded_append, first]
  refine ⟨?_, ?_, ?_⟩
  · apply faithful_completeSteps
    intro succeeds isPacket dirty
    rcases completable succeeds with phase | synced
    · exact .inl (phase.modified ⟨.permissions2, rfl, isPacket, dirty⟩)
    · exact .inr synced
  · apply faithful_completeSteps
    intro succeeds isPacket dirty
    have record : (completePacket p lkgStatus .permissions2 mgr).data .permissions =
        mgr.data .permissions := congrArg ManagerData.data (completePacket_boxes_other lkgStatus (by decide))
    rw [record] at isPacket dirty
    rcases completable succeeds with phase | synced
    · -- the other packet was not dirty and nothing was done, or it was and all is saved
      have isSecond : MailBox.permissions2.isPermissions = true := rfl
      rcases completePacket_owes lkgStatus isSecond phase.backed fun _ => phase with synced | ⟨kept, _⟩
      · exact .inr synced
      · rw [kept]
        exact .inl (phase.modified ⟨.permissions, rfl, isPacket, dirty⟩)
    · exact .inr (synced_completePacket lkgStatus .permissions2 synced)
  · apply faithful_of_noCommit
    rw [List.forall_mem_append]
    refine ⟨fun packetStep mem => ?_, fun packetStep mem => ?_⟩
    · exact PacketStep.noCommit_of_box (by rw [box_completeEnrollSteps packetStep mem]; rfl)
    · exact PacketStep.noCommit_of_box (by rw [box_completeEnrollSteps packetStep mem]; rfl)

theorem faithful_completions {ui : UserInterface} {lkgStatus : EfiStatus}
    (completable : lkgStatus = .success → Completable p mgr) :
    Runs.Guarded (Machine.take p) (Machine.Faithful p) mgr.machine (completionsSteps p ui lkgStatus mgr) := by
  simp only [completionsSteps]
  rw [List.append_assoc, List.append_assoc, Runs.guarded_append]
  refine ⟨faithful_completeAtomic completable, faithful_of_noCommit ?_ _⟩
  rw [List.forall_mem_append, List.forall_mem_append]
  refine ⟨fun packetStep mem => ?_, fun packetStep mem => ?_, fun packetStep mem => ?_⟩
  · exact PacketStep.noCommit_of_box (by rw [box_settingsSteps packetStep mem]; rfl)
  · exact PacketStep.noCommit_of_box (by rw [box_settingsSteps packetStep mem]; rfl)
  · have others : ∀ box ∈ [MailBox.identity2, .identity], box.isPermissions = false := by decide
    exact PacketStep.noCommit_of_box (others _ (box_unEnrollsSteps packetStep mem))

/-- A pass whose first phase, if it completes, leaves a state in which the packets can be completed. -/
theorem faithful_mailBoxes {ui : UserInterface}
    (completable : ∀ after, processInOrder p ui atomicBoxes mgr = (.completed, after) → Completable p after) :
    Runs.Guarded (Machine.take p) (Machine.Faithful p) mgr.machine (mailBoxesSteps p ui mgr) := by
  have reached : Runs.run (Machine.take p) mgr.machine (inOrderSteps p ui atomicBoxes mgr) =
      (processInOrder p ui atomicBoxes mgr).2.machine := (Spells.traces p).inOrder ui atomicBoxes mgr
  rw [mailBoxesSteps, Runs.guarded_append, reached]
  refine ⟨faithful_of_noCommit noCommit_inOrderSteps _, ?_⟩
  generalize processInOrder p ui atomicBoxes mgr = answer at completable
  obtain ⟨ending, after⟩ := answer
  cases ending with
  | delayed => trivial
  | completed => exact faithful_completions fun _ => completable after rfl
  | failed code =>
    refine faithful_completions fun succeeds => ?_
    cases succeeds

/-- From the start of a run, and after a wait in its first phase. -/
theorem Phase.faithful (phase : Phase p mgr) (sorted : mgr.Sorted) (ui : UserInterface) :
    Runs.Guarded (Machine.take p) (Machine.Faithful p) mgr.machine (mailBoxesSteps p ui mgr) := by
  apply faithful_mailBoxes
  intro after completes
  have run := PhaseRun.processInOrder ui (fun _ mem => mem) phase sorted
  rw [completes] at run
  exact .inl (run.phase (by simp))

/-- After a wait behind the first phase, when all packets had their turn. -/
theorem Exhausted.faithful (exhausted : mgr.Exhausted atomicBoxes)
    (synced : Synced p mgr.machine.permissions) (ui : UserInterface) :
    Runs.Guarded (Machine.take p) (Machine.Faithful p) mgr.machine (mailBoxesSteps p ui mgr) := by
  apply faithful_mailBoxes
  intro after completes
  obtain ⟨auth, kept⟩ : ∃ auth, (Manager.processInOrder p ui atomicBoxes mgr).2.machine =
      { mgr.machine with auth := auth } := Exhausted.processInOrder ui (fun _ mem => mem) exhausted
  rw [completes] at kept
  refine .inr ?_
  rw [kept]
  exact synced

end

end Manager

/-! ## Whole runs -/

section

variable {p : Platform} (saves : ∀ flash, (initAndSave p flash).1 = .success)
include saves

/-- In the mailboxes of a boot, every commit finds what it saves. -/
theorem Machine.faithful_mailboxes {m : Machine} (synced : Synced p m.permissions)
    {early late : UserInterface} {read : MailBox → Except Nat (List Byte)}
    (guarded : m.SavesEntries p (.mailboxes early late read)) : Runs.Guarded (Machine.take p) (Machine.Faithful p) m
      (m.mailboxesSteps p early late read) := by
  have starts := Manager.starts_allocateManagerData synced read
  have firstPass := fun waits => synced_firstPass saves synced rfl rfl guarded.2 waits
  rw [mailboxesSteps]
  generalize Manager.allocateManagerData p m read = mgr at *
  obtain rfl := starts.machine
  have reached : Runs.run (Machine.take p) mgr.machine (Manager.mailBoxesSteps p early mgr) =
      (Manager.processMailBoxes p early mgr).2.machine := (Manager.Spells.traces p).mailBoxes early mgr
  rw [Runs.guarded_append, reached]
  refine ⟨starts.phase.faithful starts.sorted early, ?_⟩
  have second : ∀ waiting, Manager.processMailBoxes p early mgr = (.delayed, waiting) →
      Runs.Guarded (Machine.take p) (Machine.Faithful p) waiting.machine
        (Manager.mailBoxesSteps p late { waiting with processingAtEndOfDxe := true }) := by
    intro waiting delayed
    by_cases waits : (Manager.processInOrder p early Manager.atomicBoxes mgr).1 = .delayed
    · -- the packets that had their turn are still to be completed
      have run := Manager.PhaseRun.processInOrder early (fun _ mem => mem) starts.phase starts.sorted
      have follows : (Manager.processInOrder p early Manager.atomicBoxes mgr).2.Sorted :=
        starts.sorted.follows ((Manager.Follows.refl mgr).processInOrder early Manager.atomicBoxes)
      have isWaiting : Manager.processInOrder p early Manager.atomicBoxes mgr = (.delayed, waiting) := by
        rw [Manager.processMailBoxes] at delayed
        generalize Manager.processInOrder p early Manager.atomicBoxes mgr = answer at waits delayed
        obtain ⟨ending, after⟩ := answer
        cases waits
        exact delayed
      rw [isWaiting] at run follows
      have waitingPhase := run.phase (by simp)
      have latePhase : Manager.Phase p { waiting with processingAtEndOfDxe := true } :=
        ⟨waitingPhase.backed, waitingPhase.modified⟩
      exact latePhase.faithful follows late
    · have settled := firstPass waits
      rw [delayed] at settled
      exact (starts.exhausts_delayed waits delayed).faithful settled late
  generalize Manager.processMailBoxes p early mgr = answer at second
  obtain ⟨ending, waiting⟩ := answer
  cases ending with
  | delayed =>
    simp only
    split
    · exact second waiting rfl
    · trivial
  | completed | failed code => trivial

variable {publisher : PermissionPublisher} (time : p.getTimeStatus = .success)
  (sets : ∀ tree, publisher.setVariable tree = .success)
include time sets

theorem announced_mailboxes {state : PublishingMachine} {early late : UserInterface}
    {read : MailBox → Except Nat (List Byte)} (synced : Synced p state.machine.permissions)
    (announced : Announced p state.machine.permissions state.published)
    (guarded : state.machine.SavesEntries p (.mailboxes early late read))
    (unversioned : ∀ packetStep ∈ state.machine.mailboxesSteps p early late read, packetStep.NamesNoLsv p) :
    let reached := state.step p publisher (.mailboxes early late read)
    Announced p reached.machine.permissions reached.published := by
  have faithful := state.machine.faithful_mailboxes saves synced guarded
  simp only [PublishingMachine.step]
  generalize state.machine.mailboxesSteps p early late read = steps at unversioned faithful
  clear synced guarded
  -- the steps of the machine are those of its first component
  induction steps generalizing state with
  | nil => exact announced
  | cons packetStep steps ih =>
    obtain ⟨first, later⟩ := List.forall_mem_cons.mp unversioned
    exact ih (announced_take time sets saves announced first faithful.1) later faithful.2

end

namespace PublishingMachine

/-- What the document needs of an event. A boot without an Owner starts over and publishes nothing while there is a
document, and a permission packet may leave an `Lsv` that no document says. -/
def KeepsPublished (p : Platform) (state : PublishingMachine) : MachineEvent → Prop
  | .boot zeroTouch =>
    (state.machine.boot p zeroTouch).certs.populatedIdentities.has .signerOwner = true ∨
      Announces state.published (initPermStore p).current
  | .mailboxes early late read =>
    state.machine.SavesEntries p (.mailboxes early late read) ∧
      ∀ packetStep ∈ state.machine.mailboxesSteps p early late read, packetStep.NamesNoLsv p
  | _ => True

structure Consistent (p : Platform) (state : PublishingMachine) : Prop where
  synced : Synced p state.machine.permissions
  announced : Announced p state.machine.permissions state.published

section

variable {p : Platform} {publisher : PermissionPublisher} (time : p.getTimeStatus = .success)
  (sets : ∀ tree, publisher.setVariable tree = .success) (saves : ∀ flash, (initAndSave p flash).1 = .success)
include time sets saves

theorem Consistent.step {state : PublishingMachine} (consistent : Consistent p state) {event : MachineEvent}
    (guarded : state.KeepsPublished p event) : Consistent p (state.step p publisher event) := by
  obtain ⟨synced, announced⟩ := consistent
  have savesEntries : state.machine.SavesEntries p event := by
    cases event with
    | mailboxes early late read => exact guarded.1
    | boot | recovery | authWithPW | authWithSignedData | disposeAuthToken | setSetting | resetSettings
    | resetPermissions => trivial
  refine ⟨?_, ?_⟩
  · rw [step_machine]
    exact Machine.synced_step saves synced savesEntries
  · cases event with
    | boot zeroTouch =>
      obtain ⟨store, _, _, announces⟩ := announced.flash
      simp only [PublishingMachine.step, populateCurrentPermissions_inPlace _ announces.inPlace]
      exact announced.boot (saves _) guarded
    | mailboxes early late read => exact announced_mailboxes saves time sets synced announced guarded.1 guarded.2
    | recovery recoveryId =>
      have started : Announced p ({ state.machine with
          auth := (state.machine.auth.createAuthTokenWithMapping p recoveryId).2 } : Machine).permissions
          state.published := announced
      exact announced_publishClear time sets saves started _
    | authWithPW | authWithSignedData | disposeAuthToken | setSetting => exact announced
    | resetSettings token =>
      simp only [PublishingMachine.step, Machine.step, Machine.systemSettingsAccessReset]
      split <;> exact announced
    | resetPermissions token => exact announced_publishReset time sets saves announced token

end

/-- The published permissions are those in force. -/
theorem published_inForce {p : Platform} {publisher : PermissionPublisher}
    (writes : ∀ name data, p.setVariable name data = .success)
    (fits : (initPermStore p).varSize ≤ maxSizeForVar) (time : p.getTimeStatus = .success)
    (sets : ∀ tree, publisher.setVariable tree = .success) (start : PublishingMachine)
    (own : OwnAttributes start.machine.permissions.flash) (unversioned : persistedLsv start.machine.permissions.flash = 0)
    (missing : inPlace start.published = false) (zeroTouch : ZeroTouch) (events : List MachineEvent)
    (guarded : Runs.Guarded (step p publisher) (KeepsPublished p) (start.step p publisher (.boot zeroTouch)) events) :
    let reached := Runs.run (step p publisher) (start.step p publisher (.boot zeroTouch)) events
    ∃ store, reached.machine.permissions.store = some store ∧ Announces reached.published store.inForce := by
  have saves : ∀ flash, (initAndSave p flash).1 = .success :=
    fun flash => (initAndSave_success_iff writes flash).mpr fits
  have booted : Consistent p (start.step p publisher (.boot zeroTouch)) :=
    ⟨synced_boot saves own _, Announced.firstBoot time sets saves own unversioned missing _⟩
  have preserved : ∀ (state : PublishingMachine) event, Consistent p state → state.KeepsPublished p event →
      Consistent p (state.step p publisher event) :=
    fun _ _ consistent guarded => consistent.step time sets saves guarded
  have reached := Runs.Guarded.invariant _ preserved booted guarded
  exact reached.announced.inForce reached.synced

/-! A packet that names no `Lsv`, and one that names the first. -/

def unversionedPlatform : Platform :=
  { ownerOnlyPlatform with
    createXmlTree := (packetPlatform [permissionElement "Dfci.ZtdUnenroll.Enable" "243" "0"]
      (permissionsPacket "1" "0" "True" [permissionElement "Dfci.OwnerKey.Enum" "128" "128"])).createXmlTree }

def datelessPublisher : PermissionPublisher := ⟨fun _ => .ofString "", fun _ => .success⟩

def unpublished : PublishingMachine := ⟨.blank .empty 0, none⟩

/-- The enrolment of an Owner with a permission packet of that Owner, and a reset. -/
theorem published_inForce_signed :
    let events := [MachineEvent.mailboxes confirmingUser confirmingUser Machine.ownerMailboxes, .boot {}]
    let booted := unpublished.step unversionedPlatform datelessPublisher (.boot {})
    let reached := Runs.run (step unversionedPlatform datelessPublisher) booted events
    reached.machine.certs.provisionedCert .signerOwner = some [1] ∧
      ∃ store, reached.machine.permissions.store = some store ∧ Announces reached.published store.inForce := by
  have ends : (Manager.allocateManagerData unversionedPlatform
      (unpublished.step unversionedPlatform datelessPublisher (.boot {})).machine Machine.ownerMailboxes).Ends
      unversionedPlatform confirmingUser confirmingUser := by
    intro waiting delayed
    have ending : (Manager.processMailBoxes unversionedPlatform confirmingUser (Manager.allocateManagerData
      unversionedPlatform (unpublished.step unversionedPlatform datelessPublisher (.boot {})).machine
      Machine.ownerMailboxes)).1 ≠ .delayed := by decide +kernel
    rw [delayed] at ending
    exact absurd rfl ending
  exact ⟨by decide +kernel, published_inForce (fun _ _ => rfl) (by decide +kernel) rfl (fun _ => rfl) unpublished
    (by rintro _ ⟨⟩) rfl rfl {} _ ⟨⟨⟨ends, .inr (by decide +kernel)⟩, by decide +kernel⟩, .inl (by decide +kernel), trivial⟩⟩

def document (state : PublishingMachine) : Option CurrentPermissions :=
  state.published.bind fun var => CurrentPermissions.ofXml var.tree

theorem not_inForce_of_ne {state : PublishingMachine}
    (differ : state.document ≠ state.machine.permissions.store.map PermissionStore.inForce) :
    ¬ ∃ store, state.machine.permissions.store = some store ∧ Announces state.published store.inForce := by
  rintro ⟨store, isStore, var, isVar, _, reads⟩
  rw [document, isVar, isStore] at differ
  exact differ reads

/-- With an `Lsv` of one in the packet the document still says zero. Without a packet, what the enrolment does to the
entries is in no document. -/
theorem published_behind :
    let versioned := Runs.run (step ownerOnlyPlatform datelessPublisher) unpublished
      [.boot {}, .mailboxes confirmingUser confirmingUser Machine.ownerMailboxes]
    let enrolled := Runs.run (step keyedPlatform datelessPublisher) unpublished
      [.boot {}, .mailboxes confirmingUser confirmingUser (Machine.identityMailbox (enrollPacket 1 1 1))]
    (¬ ∃ store, versioned.machine.permissions.store = some store ∧ Announces versioned.published store.inForce) ∧
      ¬ ∃ store, enrolled.machine.permissions.store = some store ∧ Announces enrolled.published store.inForce := by
  intro versioned enrolled
  exact ⟨not_inForce_of_ne (by decide +kernel), not_inForce_of_ne (by decide +kernel)⟩

end PublishingMachine

end Dfci
