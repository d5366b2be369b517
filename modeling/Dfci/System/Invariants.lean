import Dfci.Identity.CertAccess
import Dfci.Identity.Effect
import Dfci.Permission.FlashAccess
import Dfci.System

/-! # Invariants of one manager over the life of a machine

What the operations of the permission manager keep, and what those on the certificates keep, every event keeps. -/

namespace Dfci

/-! ## The permission store -/

section

variable {p : Platform} (holds : PermissionState → Prop)
  (steps : ∀ perms event, holds perms → holds (PermissionState.step p perms event))
  (resets : ∀ perms, holds perms → holds (PermissionState.initAndSave p perms.flash).2)

include resets

theorem clearDfci_permissions_invariant {m : Machine} (initially : holds m.permissions) (token : AuthToken) :
    holds (m.clearDfci p token).2.permissions := by
  have effect := m.clearDfci_effect p token
  have reset := resets m.permissions initially
  generalize m.clearDfci p token = result at effect
  cases effect with
  | refused => exact initially
  | permissionsFailed code perms may fails =>
    rw [fails] at reset
    exact reset
  | certsFailed code perms certs certFlash may succeeds fails =>
    rw [succeeds] at reset
    exact reset
  | cleared perms certs certFlash may succeeds clears =>
    rw [succeeds] at reset
    exact reset

include steps

theorem applyPacket_permissions_invariant (ui : UserInterface) (box : MailBox) {m : Machine}
    (data : Packet) (initially : holds m.permissions) : holds (applyPacket p ui box m data).machine.permissions := by
  have identity : holds (applyNewIdentityPacket p ui m data).machine.permissions := by
    have effect := applyNewIdentityPacket_effect p ui m data
    generalize (applyNewIdentityPacket p ui m data).machine = after at effect
    cases effect with
    | kept => exact initially
    | provisioned identity approver =>
      exact steps m.permissions (.identityChange (.ok approver) identity _) initially
    | clears approver token before =>
      have same : holds ({ m with auth := before } : Machine).permissions := initially
      exact clearDfci_permissions_invariant holds resets same token
  have perms := steps m.permissions (.packet m.certs m.auth data) initially
  cases box with
  | identity | identity2 => exact identity
  | permissions | permissions2 => exact perms
  | settings | settings2 => exact initially

omit resets in
theorem lkg_permissions_invariant (op : LkgOperation) (box : MailBox) {m : Machine} (data : Packet)
    (initially : holds m.permissions) : holds (lkg p op box m data).machine.permissions := by
  -- the identity manager's handler does not touch the permissions
  have identity : (identityLkgHandler p op m data).machine.permissions = m.permissions :=
    (identityLkgHandler_frame p op m data).2.1
  have perms := steps m.permissions (.lkg op data) initially
  cases box with
  | identity | identity2 => exact identity ▸ initially
  | permissions | permissions2 => exact perms
  | settings | settings2 => exact initially

/-- What the permission manager's steps, its resets and its part of a boot keep, every event keeps. -/
theorem Machine.step_permissions_invariant (boots : ∀ ownerEnrolled perms, holds perms →
      holds (PermissionState.boot p ownerEnrolled perms.flash))
    {m : Machine} (event : MachineEvent) (initially : holds m.permissions) : holds (m.step p event).permissions := by
  cases event with
  | boot zeroTouch => exact boots _ m.permissions initially
  | mailboxes early late read =>
    refine Manager.mailboxes_invariant (fun m => holds m.permissions) ?_ ?_ early late read initially
    · intro ui box m data held
      exact applyPacket_permissions_invariant holds steps resets ui box data held
    · intro op box m data held
      exact lkg_permissions_invariant holds steps op box data held
  | recovery recoveryId =>
    let minted := m.auth.createAuthTokenWithMapping p recoveryId
    have same : holds ({ m with auth := minted.2 } : Machine).permissions := initially
    exact clearDfci_permissions_invariant holds resets same minted.1
  | authWithPW | authWithSignedData | disposeAuthToken | setSetting => exact initially
  | resetSettings token =>
    simp only [step, systemSettingsAccessReset]
    split <;> exact initially
  | resetPermissions token =>
    simp only [step, resetPermissionsToDefault]
    split
    · exact initially
    · exact initially
    · exact resets m.permissions initially

end

/-- The variable stays the manager's own, and no deletion mark is left, in every state. -/
theorem Machine.step_sound (p : Platform) {m : Machine} (event : MachineEvent)
    (sound : m.permissions.Sound) : (m.step p event).permissions.Sound :=
  step_permissions_invariant PermissionState.Sound (fun _ event held => held.step event)
    (fun _ held => .initAndSave held.own) (fun ownerEnrolled _ held => .boot held.own ownerEnrolled) event sound

/-! ## The certificate store -/

section

variable {p : Platform} (holds : CertStore → Option Variable → Prop)
  (provisions : ∀ certs flash identity i data, holds certs flash → holds (certs.provision identity i data) flash)
  (initializes : ∀ certs flash, holds certs flash →
    let initialized := CertStore.initializeProvisionedData p flash certs
    holds initialized.2.1 initialized.2.2)
  (loads : ∀ certs flash, holds certs flash → holds (CertStore.loadProvisionedData flash certs).2 flash)
  (saves : ∀ certs flash, holds certs flash → holds certs (CertStore.saveProvisionedData p flash certs).2)

include initializes

theorem clearDfci_certs_invariant {m : Machine} (initially : holds m.certs m.certFlash) (token : AuthToken) :
    let cleared := (m.clearDfci p token).2
    holds cleared.certs cleared.certFlash := by
  have effect := m.clearDfci_effect p token
  have reset := initializes m.certs m.certFlash initially
  generalize m.clearDfci p token = result at effect
  cases effect with
  | refused | permissionsFailed => exact initially
  | certsFailed code perms certs certFlash may succeeds fails =>
    rw [fails] at reset
    exact reset
  | cleared perms certs certFlash may succeeds clears =>
    rw [clears] at reset
    exact reset

include provisions in
theorem applyPacket_certs_invariant (ui : UserInterface) (box : MailBox) {m : Machine} (data : Packet)
    (initially : holds m.certs m.certFlash) :
    let applied := (applyPacket p ui box m data).machine
    holds applied.certs applied.certFlash := by
  have identity : let applied := (applyNewIdentityPacket p ui m data).machine
      holds applied.certs applied.certFlash := by
    have effect := applyNewIdentityPacket_effect p ui m data
    generalize (applyNewIdentityPacket p ui m data).machine = after at effect
    cases effect with
    | kept => exact initially
    | provisioned identity approver i => exact provisions m.certs m.certFlash identity i data initially
    | clears approver token before =>
      have same : holds ({ m with auth := before } : Machine).certs m.certFlash := initially
      exact clearDfci_certs_invariant holds initializes same token
  cases box with
  | identity | identity2 => exact identity
  | permissions | permissions2 | settings | settings2 => exact initially

omit initializes
include loads saves

theorem lkg_certs_invariant (op : LkgOperation) (box : MailBox) {m : Machine} (data : Packet)
    (initially : holds m.certs m.certFlash) :
    let completed := (lkg p op box m data).machine
    holds completed.certs completed.certFlash := by
  have loaded := loads m.certs m.certFlash initially
  have identity : let completed := (identityLkgHandler p op m data).machine
      holds completed.certs completed.certFlash := by
    have effect := identityLkgHandler_effect p op m data
    generalize (identityLkgHandler p op m data).machine = after at effect
    cases effect with
    | kept => exact initially
    | reloaded => exact loaded
    | saved => exact saves m.certs m.certFlash initially
  cases box with
  | identity | identity2 => exact identity
  | permissions | permissions2 | settings | settings2 => exact initially

include provisions initializes

/-- What the operations on the certificates and a boot keep, every event keeps. -/
theorem Machine.step_certs_invariant (boots : ∀ (m : Machine) (zeroTouch : ZeroTouch), holds m.certs m.certFlash →
      let booted := m.boot p zeroTouch
      holds booted.certs booted.certFlash)
    {m : Machine} (event : MachineEvent) (initially : holds m.certs m.certFlash) :
    let after := m.step p event
    holds after.certs after.certFlash := by
  cases event with
  | boot zeroTouch => exact boots m zeroTouch initially
  | mailboxes early late read =>
    refine Manager.mailboxes_invariant (fun m => holds m.certs m.certFlash) ?_ ?_ early late read
      initially
    · intro ui box m data held
      exact applyPacket_certs_invariant holds provisions initializes ui box data held
    · intro op box m data held
      exact lkg_certs_invariant holds loads saves op box data held
  | recovery recoveryId =>
    let minted := m.auth.createAuthTokenWithMapping p recoveryId
    have same : holds ({ m with auth := minted.2 } : Machine).certs m.certFlash := initially
    exact clearDfci_certs_invariant holds initializes same minted.1
  | authWithPW | authWithSignedData | disposeAuthToken | setSetting => exact initially
  | resetSettings token =>
    simp only [step, systemSettingsAccessReset]
    split <;> exact initially
  | resetPermissions token =>
    simp only [step, resetPermissionsToDefault]
    split <;> exact initially

end

/-! ## The variables are read inside -/

namespace PermissionState

open PermissionStore

variable {p : Platform} {holds : Option Variable → Prop}
  (saves : ∀ flash store, holds flash → holds (saveToFlash p flash store).2.2)
include saves

theorem reload_flash {perms : PermissionState} (initially : holds perms.flash) : holds (perms.reload p).2.flash := by
  simp only [reload, loadFromFlash]
  split
  · exact initially
  · exact saves _ _ initially

theorem save_flash {perms : PermissionState} (initially : holds perms.flash) : holds (perms.save p).2.flash := by
  rw [save]
  split
  · exact initially
  · exact saves _ _ initially

theorem boot_flash (ownerEnrolled : Bool) {flash : Option Variable} (initially : holds flash) :
    holds (boot p ownerEnrolled flash).flash := by
  have reloaded : holds (reload p ⟨none, flash⟩).2.flash := reload_flash saves initially
  rw [boot]
  split
  · split <;> rename_i loads <;> rw [loads] at reloaded
    · exact reloaded
    · exact save_flash saves reloaded
  · exact save_flash saves initially

theorem step_flash (perms : PermissionState) (event : PermissionEvent) (initially : holds perms.flash) :
    holds (perms.step p event).flash := by
  cases event with
  | identityChange =>
    rw [step, identityChange]
    split <;> exact initially
  | packet certs auth data =>
    rcases step_packet p perms certs auth data with
      same | ⟨_, _, _, _, _, _, reloaded⟩ | ⟨_, _, _, _, _, _, replaced⟩
    · rwa [same]
    · exact reloaded ▸ reload_flash saves initially
    · exact replaced ▸ initially
  | lkg op data =>
    rw [step_lkg]
    split
    · split
      · exact save_flash saves initially
      · exact reload_flash saves initially
    · exact initially
  | reboot => exact boot_flash saves true initially

end PermissionState

theorem PermissionStore.saveToFlash_within (p : Platform) (flash : Option Variable) (store : PermissionStore)
    (within : ∀ var ∈ flash, ReadsWithin var.data) :
    ∀ var ∈ (saveToFlash p flash store).2.2, ReadsWithin var.data := by
  rcases saveToFlash_cases p flash store with ⟨_, same⟩ | ⟨_, same⟩ | ⟨_, _, _, same⟩ | ⟨_, fits, written⟩
  · rwa [same]
  · rwa [same]
  · rwa [same]
  · rw [written]
    rintro _ ⟨⟩
    exact (laid_encode fits _ _).1

theorem Machine.step_readsWithin (p : Platform) (m : Machine) (event : MachineEvent)
    (within : ∀ var ∈ m.permissions.flash, PermissionStore.ReadsWithin var.data) :
    ∀ var ∈ (m.step p event).permissions.flash, PermissionStore.ReadsWithin var.data := by
  have saves := PermissionStore.saveToFlash_within p
  refine step_permissions_invariant (fun perms => ∀ var ∈ perms.flash, PermissionStore.ReadsWithin var.data)
    (PermissionState.step_flash saves) ?_ ?_ event within
  · exact fun _ held => PermissionState.save_flash saves held
  · exact fun ownerEnrolled _ held => PermissionState.boot_flash saves ownerEnrolled held

section

open CertStore

variable {p : Platform} {flash : Option Variable} (within : ∀ var ∈ flash, StructWithin var.data)
include within

theorem saveProvisionedData_within (store : CertStore) :
    ∀ var ∈ (saveProvisionedData p flash store).2, StructWithin var.data := by
  rw [saveProvisionedData]
  split
  · rintro _ ⟨⟩
    exact structWithin_encode store
  · exact within

theorem initializeProvisionedData_within (store : CertStore) :
    ∀ var ∈ (initializeProvisionedData p flash store).2.2, StructWithin var.data := by
  refine saveProvisionedData_within ?_ _
  split
  · exact within
  · exact nofun

theorem populateInternalCertStore_within (store : CertStore) :
    ∀ var ∈ (populateInternalCertStore p flash store).2.2, StructWithin var.data := by
  rw [populateInternalCertStore]
  split
  · exact within
  · split
    · exact within
    · exact initializeProvisionedData_within within _

theorem zeroTouch_within (zeroTouch : ZeroTouch) (store : CertStore) :
    ∀ var ∈ (store.zeroTouch p zeroTouch flash).2, StructWithin var.data := by
  simp only [CertStore.zeroTouch]
  repeat' split
  all_goals first | exact within | exact saveProvisionedData_within within _

end

theorem Machine.step_structWithin (p : Platform) (m : Machine) (event : MachineEvent)
    (within : ∀ var ∈ m.certFlash, CertStore.StructWithin var.data) :
    ∀ var ∈ (m.step p event).certFlash, CertStore.StructWithin var.data := by
  refine step_certs_invariant (fun _ flash => ∀ var ∈ flash, CertStore.StructWithin var.data) ?_ ?_ ?_ ?_ ?_ event within
  · exact fun _ _ _ _ _ held => held
  · exact fun certs _ held => initializeProvisionedData_within held certs
  · exact fun _ _ held => held
  · exact fun certs _ held => saveProvisionedData_within held certs
  · exact fun _ zeroTouch held => zeroTouch_within (populateInternalCertStore_within held .initial) zeroTouch _

/-- From an unused machine on, whatever happens, the variables of the permissions and of the certificates are read inside,
and `VarSize` does not wrap. -/
theorem Machine.run_readsInside (p : Platform) (providers : Providers) (draws : Nat) (events : List MachineEvent) :
    let m := Runs.run (step p) (blank providers draws) events
    (∀ var ∈ m.permissions.flash, ∀ later : Platform,
      PermissionStore.parseAccess later var.data = some (PermissionStore.parse later var.data)) ∧
    ∀ var ∈ m.certFlash, var.data.length < 2 ^ 64 → ∀ store, ∃ rest : CertStore.Remaining, rest.wrapped = false ∧
      CertStore.loadProvisionedDataAccess var.data store =
        some (rest, CertStore.loadProvisionedData (some ⟨internalVarAttributes, var.data⟩) store) := by
  have reads : ∀ var ∈ (blank providers draws).permissions.flash, PermissionStore.ReadsWithin var.data := nofun
  have structs : ∀ var ∈ (blank providers draws).certFlash, CertStore.StructWithin var.data := nofun
  refine ⟨fun var present later => ?_, fun var present sized store => ?_⟩
  · exact PermissionStore.parseAccess_within (Runs.invariant _ (step_readsWithin p) reads events var present)
  · exact CertStore.loadProvisionedDataAccess_within sized store
      (Runs.invariant _ (step_structWithin p) structs events var present)

end Dfci
