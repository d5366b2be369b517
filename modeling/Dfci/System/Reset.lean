import Dfci.Identity.CertInvariant
import Dfci.System.Invariants

/-! # Clearing forgets everything

Two machines of the same firmware, whatever became of them, are the same after `ClearDFCI` in all that DFCI keeps, but
for the Zero Touch certificate. -/

namespace Dfci

open ByteFields

/-! ## The versions of the certificate store

Nothing writes them but `LoadProvisionedData`, and it finds what was saved. -/

namespace CertStore

structure Unversioned (certs : CertStore) (flash : Option Variable) : Prop where
  version : certs.version = 0
  lsv : certs.lsv = 0
  flash : ∀ var ∈ flash, fieldAt var.data 24 4 = 0 ∧ fieldAt var.data 28 4 = 0

section

variable {certs : CertStore} {flash : Option Variable}

theorem Unversioned.save (unversioned : Unversioned certs flash) (p : Platform) :
    Unversioned certs (saveProvisionedData p flash certs).2 := by
  rw [saveProvisionedData]
  split
  · refine ⟨unversioned.version, unversioned.lsv, ?_⟩
    rintro _ ⟨⟩
    constructor
    · rw [fieldAt_encode_version certs (by rw [unversioned.version]; exact Nat.two_pow_pos 32), unversioned.version]
    · rw [fieldAt_encode_lsv certs (by rw [unversioned.lsv]; exact Nat.two_pow_pos 32), unversioned.lsv]
  · exact unversioned

theorem Unversioned.provision (unversioned : Unversioned certs flash) (identity : Identity) (i : Fin 7)
    (data : Packet) : Unversioned (certs.provision identity i data) flash := by
  have versions : (certs.provision identity i data).version = certs.version ∧
      (certs.provision identity i data).lsv = certs.lsv := by
    simp only [CertStore.provision]
    by_cases held : (certs.certs i).cert.isSome = true <;> by_cases carries : data.payload.isSome = true
    all_goals simp only [held, carries, if_true, Bool.false_eq_true, if_false, setCert, and_self]
  exact ⟨versions.1.trans unversioned.version, versions.2.trans unversioned.lsv, unversioned.flash⟩

theorem loadLayout_versions (data : List Byte) (layout : VarLayout) (store : CertStore) (version : store.version = 0)
    (lsv : store.lsv = 0) :
    (loadLayout data layout store).2.version = 0 ∧ (loadLayout data layout store).2.lsv = 0 := by
  rw [loadLayout]
  split
  · exact ⟨version, lsv⟩
  · rw [loadCerts_eq]
    generalize loadSlots data layout.indices layout.packedAt (data.length - layout.packedAt) = found
    obtain ⟨status, slots⟩ := found
    have installed : (slots.foldl install store).version = 0 ∧ (slots.foldl install store).lsv = 0 := by
      rw [(foldl_install_versions store).1, (foldl_install_versions store).2]
      exact ⟨version, lsv⟩
    cases status with
    | error code => exact installed
    | success =>
      simp only [checkOwner]
      split
      · constructor
        · simp only
          split
          · rfl
          · exact installed.1
        · simp only
          split
          · rfl
          · exact installed.2
      · exact installed

theorem Unversioned.load (unversioned : Unversioned certs flash) :
    Unversioned (loadProvisionedData flash certs).2 flash := by
  cases flash with
  | none => exact unversioned
  | some var =>
    obtain ⟨version, lsv⟩ := unversioned.flash var rfl
    have loaded : (loadProvisionedData (some var) certs).2.version = 0 ∧
        (loadProvisionedData (some var) certs).2.lsv = 0 := by
      simp only [loadProvisionedData]
      split
      · exact ⟨unversioned.version, unversioned.lsv⟩
      · split
        · exact ⟨unversioned.version, unversioned.lsv⟩
        · split
          · exact loadLayout_versions _ _ _ rfl rfl
          · exact loadLayout_versions _ _ _ version lsv
          · exact ⟨unversioned.version, unversioned.lsv⟩
    exact ⟨loaded.1, loaded.2, unversioned.flash⟩

theorem Unversioned.initialized (unversioned : Unversioned certs flash) (p : Platform) :
    let initialized := initializeProvisionedData p flash certs
    Unversioned initialized.2.1 initialized.2.2 := by
  have deleted : Unversioned certs.cleared
      (if (p.deleteVariable .certificateStore).isError then flash else none) := by
    refine ⟨unversioned.version, unversioned.lsv, ?_⟩
    split
    · exact unversioned.flash
    · simp
  exact deleted.save p

theorem Unversioned.populate (unversioned : Unversioned certs flash) (p : Platform) :
    let populated := populateInternalCertStore p flash certs
    Unversioned populated.2.1 populated.2.2 := by
  have loaded := unversioned.load
  rw [populateInternalCertStore]
  generalize loadProvisionedData flash certs = answer at loaded
  obtain ⟨status, store⟩ := answer
  cases status with
  | success => exact loaded
  | error code =>
    have freed : Unversioned store.freeCertStore flash := ⟨loaded.version, loaded.lsv, loaded.flash⟩
    simp only
    split
    · exact freed.load
    · exact (freed.initialized p).load

theorem Unversioned.zeroTouch (unversioned : Unversioned certs flash) (p : Platform) (zeroTouch : ZeroTouch) :
    let installed := certs.zeroTouch p zeroTouch flash
    Unversioned installed.1 installed.2 := by
  -- a slot and a mask are changed, and the store is saved
  have saved : ∀ details populated,
      let changed := { certs.setCert certZtdIndex details with populatedIdentities := populated }
      Unversioned changed (saveProvisionedData p flash changed).2 := by
    intro details populated
    have changed : Unversioned { certs.setCert certZtdIndex details with populatedIdentities := populated } flash :=
      ⟨unversioned.version, unversioned.lsv, unversioned.flash⟩
    exact changed.save p
  simp only [CertStore.zeroTouch]
  split
  · exact unversioned
  · split
    · split
      · exact unversioned
      · exact saved _ _
    · exact unversioned
  · split
    · exact saved _ _
    · exact unversioned

/-- A clearing that succeeds has saved what it left. -/
theorem initializeProvisionedData_success {p : Platform} {after : CertStore} {saved : Option Variable}
    (succeeds : initializeProvisionedData p flash certs = (.success, after, saved)) :
    after = certs.cleared ∧ saved = some ⟨internalVarAttributes, certs.cleared.encode⟩ := by
  have saves : ((saveProvisionedData p
      (if (p.deleteVariable .certificateStore).isError then flash else none) certs.cleared).1, certs.cleared,
      (saveProvisionedData p
        (if (p.deleteVariable .certificateStore).isError then flash else none) certs.cleared).2) =
      (EfiStatus.success, after, saved) := succeeds
  simp only [saveProvisionedData] at saves
  split at saves
  · cases saves
    exact ⟨rfl, rfl⟩
  · cases saves

end

end CertStore

theorem Machine.step_unversioned (p : Platform) {m : Machine} (event : MachineEvent)
    (unversioned : CertStore.Unversioned m.certs m.certFlash) :
    let after := m.step p event
    CertStore.Unversioned after.certs after.certFlash := by
  refine step_certs_invariant CertStore.Unversioned ?_ ?_ ?_ ?_ ?_ event unversioned
  · exact fun _ _ identity i data held => held.provision identity i data
  · exact fun _ _ held => held.initialized p
  · exact fun _ _ held => held.load
  · exact fun _ _ held => held.save p
  · intro m zeroTouch held
    have loaded : CertStore.Unversioned .initial m.certFlash := ⟨rfl, rfl, held.flash⟩
    exact (loaded.populate p).zeroTouch p zeroTouch

/-! ## Two platforms with the same firmware -/

structure SameFirmware (first second : Platform) : Prop where
  unsignedPermissionsFile : first.unsignedPermissionsFile = second.unsignedPermissionsFile
  unsignedListFormatAllow : first.unsignedListFormatAllow = second.unsignedListFormatAllow
  createXmlTree : first.createXmlTree = second.createXmlTree
  v1TranslateString : first.v1TranslateString = second.v1TranslateString

namespace PermissionStore

open PermissionXml

theorem unsignedEntries_congr {first second : Platform} (same : SameFirmware first second) (elements : List XmlNode) :
    unsignedEntries first elements = unsignedEntries second elements := by
  have reads : ∀ element, getInputPermission first element = getInputPermission second element := by
    intro element
    simp only [getInputPermission, translateId, same.v1TranslateString]
  induction elements with
  | nil => rfl
  | cons element elements ih =>
    rw [unsignedEntries, unsignedEntries, reads]
    split
    · rfl
    · rw [ih]

theorem initPermStore_agrees {first second : Platform} (same : SameFirmware first second) :
    (initPermStore first).Agrees (initPermStore second) := by
  rw [initPermStore_eq, initPermStore_eq, addUnsignedPermissionEntries, addUnsignedPermissionEntries,
    modifyUnsignedPermissionEntries, modifyUnsignedPermissionEntries, same.unsignedPermissionsFile]
  split
  · exact ⟨rfl, rfl, rfl, rfl, rfl⟩
  · rename_i permXml _
    have node : unsignedPermissionsListNode first permXml = unsignedPermissionsListNode second permXml := by
      rw [unsignedPermissionsListNode, unsignedPermissionsListNode, same.createXmlTree]
    rw [node]
    split
    · exact ⟨rfl, rfl, rfl, rfl, rfl⟩
    · rename_i list _
      simp only [modifyUnsignedLoop_add, same.unsignedListFormatAllow, unsignedEntries_congr same]
      split <;> exact ⟨rfl, rfl, rfl, rfl, rfl⟩

end PermissionStore

/-! ## What is left -/

def SettingProvider.registration (provider : SettingProvider) : SettingId × SettingType × SettingFlags :=
  (provider.id, provider.type, provider.flags)

def Providers.hidden (providers : Providers) : List SettingProvider :=
  providers.list.filter fun provider => provider.flags &&& SettingFlags.noPrebootUi ≠ 0

theorem Providers.hidden_reset {p : Platform} {default : SettingId → List Byte}
    (defaults : ∀ id current, (p.setDefaultValue id current).2 = default id) (providers : Providers) :
    (providers.resetAllProvidersToDefaultsWithMatchingFlags p SettingFlags.noPrebootUi).hidden =
      ((providers.list.map SettingProvider.registration).filter fun registered =>
        registered.2.2 &&& SettingFlags.noPrebootUi ≠ 0).map
        fun registered => ⟨registered.1, registered.2.1, registered.2.2, default registered.1⟩ := by
  simp only [hidden, resetAllProvidersToDefaultsWithMatchingFlags]
  induction providers.list with
  | nil => rfl
  | cons provider rest ih =>
    rw [List.map_cons, List.map_cons, resetProvider, List.filter_cons, List.filter_cons]
    by_cases shown : provider.flags &&& SettingFlags.noPrebootUi = 0
    · simp only [SettingProvider.registration, shown, if_true, ne_eq, not_true, decide_false, Bool.false_eq_true, if_false]
      exact ih
    · simp only [SettingProvider.registration, shown, if_false, ne_eq, not_false_eq_true, decide_true, if_true, defaults,
        List.map_cons]
      rw [← ih]

namespace Machine

def Reachable (p : Platform) (m : Machine) : Prop :=
  ∃ providers draws events, m = Runs.run (step p) (blank providers draws) events

theorem Reachable.sound {p : Platform} {m : Machine} (reachable : m.Reachable p) : m.permissions.Sound := by
  obtain ⟨providers, draws, events, rfl⟩ := reachable
  have unused : (blank providers draws).permissions.Sound := ⟨(by rintro _ ⟨⟩), (by rintro _ ⟨⟩)⟩
  have preserved : ∀ (m : Machine) (event : MachineEvent), m.permissions.Sound →
      (m.step p event).permissions.Sound := fun _ event sound => step_sound p event sound
  have always := Runs.invariant (step p) preserved unused events
  exact always

theorem Reachable.unversioned {p : Platform} {m : Machine} (reachable : m.Reachable p) :
    CertStore.Unversioned m.certs m.certFlash := by
  obtain ⟨providers, draws, events, rfl⟩ := reachable
  have unused : CertStore.Unversioned (blank providers draws).certs (blank providers draws).certFlash :=
    ⟨rfl, rfl, (by rintro _ ⟨⟩)⟩
  have preserved : ∀ (m : Machine) (event : MachineEvent),
      CertStore.Unversioned m.certs m.certFlash →
      CertStore.Unversioned (m.step p event).certs (m.step p event).certFlash :=
    fun _ event held => step_unversioned p event held
  have always := Runs.invariant (step p) preserved unused events
  exact always

/-- The machine holds these certificates, this permission store and these hidden settings, in memory and in its
variables, and no token of a key. -/
structure HoldsOnly (p : Platform) (m : Machine) (store : CertStore) (initial : PermissionStore)
    (settings : List SettingProvider) : Prop where
  certs : m.certs = store
  certFlash : m.certFlash = some ⟨internalVarAttributes, store.encode⟩
  permissions : ∃ store, m.permissions.store = some store ∧ store.Agrees initial
  permissionFlash : PermissionStore.Persisted p m.permissions.flash initial
  versions : m.settings.flash = none
  hidden : m.settings.providers.hidden = settings
  tokens : ∀ token identity, m.auth.getIdentityProperties token = .ok identity → Mask.keys.has identity = false

theorem clearDfci_holdsOnly {p : Platform} {m : Machine} {default : SettingId → List Byte}
    {token : AuthToken} (sound : m.permissions.Sound) (deletes : p.deleteVariable .settingsVersions = .success)
    (defaults : ∀ id current, (p.setDefaultValue id current).2 = default id)
    (clears : (m.clearDfci p token).1 = .success) : HoldsOnly p (m.clearDfci p token).2 m.certs.cleared
      (PermissionStore.initPermStore p)
      (((m.settings.providers.list.map SettingProvider.registration).filter fun registered =>
        registered.2.2 &&& SettingFlags.noPrebootUi ≠ 0).map
        fun registered => ⟨registered.1, registered.2.1, registered.2.2, default registered.1⟩) := by
  have effect := m.clearDfci_effect p token
  generalize m.clearDfci p token = result at effect clears ⊢
  cases effect with
  | refused | permissionsFailed | certsFailed => cases clears
  | cleared perms certs certFlash may resets initializes =>
    obtain ⟨rfl, rfl⟩ := CertStore.initializeProvisionedData_success initializes
    obtain ⟨store, isStore, agrees, persisted⟩ := PermissionState.initAndSave_success sound.own resets
    refine ⟨rfl, rfl, ⟨store, isStore, agrees⟩, persisted, ?_, Providers.hidden_reset defaults _, ?_⟩
    · simp only [settingsReset, InternalData.resetInFlash, deletes]
    · exact fun _ _ => AuthState.disposeAllIdentityMappings_revokes

/-- Two machines with the same firmware, the same providers and the same ZTD certificate hold the same after they were
cleared: no certificate but that one, the initial permissions, no settings version, the default of every setting that
the preboot menu does not show, and no token of a key. -/
theorem clearDfci_complete {first second : Platform} (same : SameFirmware first second)
    {default : SettingId → List Byte}
    (firstDefaults : ∀ id current, (first.setDefaultValue id current).2 = default id)
    (secondDefaults : ∀ id current, (second.setDefaultValue id current).2 = default id)
    (firstDeletes : first.deleteVariable .settingsVersions = .success)
    (secondDeletes : second.deleteVariable .settingsVersions = .success) {one other : Machine}
    (oneReachable : one.Reachable first) (otherReachable : other.Reachable second)
    (sameZtd : one.certs.certs certZtdIndex = other.certs.certs certZtdIndex)
    (sameProviders : one.settings.providers.list.map SettingProvider.registration =
      other.settings.providers.list.map SettingProvider.registration)
    {oneToken otherToken : AuthToken} (oneClears : (one.clearDfci first oneToken).1 = .success)
    (otherClears : (other.clearDfci second otherToken).1 = .success) :
    ∃ certs hidden, (∀ i, i ≠ certZtdIndex → certs.certs i = .empty) ∧
      (∀ provider ∈ hidden, provider.value = default provider.id) ∧
      HoldsOnly first (one.clearDfci first oneToken).2 certs (PermissionStore.initPermStore first) hidden ∧
      HoldsOnly second (other.clearDfci second otherToken).2 certs (PermissionStore.initPermStore first) hidden := by
  have oneHolds := clearDfci_holdsOnly oneReachable.sound firstDeletes firstDefaults oneClears
  have otherHolds := clearDfci_holdsOnly otherReachable.sound secondDeletes secondDefaults otherClears
  have oneVersions := oneReachable.unversioned
  have otherVersions := otherReachable.unversioned
  have sameCerts : other.certs.cleared = one.certs.cleared := by
    ext1
    · exact otherVersions.version.trans oneVersions.version.symm
    · exact otherVersions.lsv.trans oneVersions.lsv.symm
    · simp only [CertStore.cleared, sameZtd]
    · funext i
      simp only [CertStore.cleared, CertStore.freeCertStore]
      split
      · rename_i isZtd
        rw [isZtd, sameZtd]
      · rfl
  rw [sameCerts, ← sameProviders] at otherHolds
  have agrees := PermissionStore.initPermStore_agrees same
  obtain ⟨store, isStore, agreesStore⟩ := otherHolds.permissions
  refine ⟨one.certs.cleared, _, ?_, ?_, oneHolds, { otherHolds with
    permissions := ⟨store, isStore, agreesStore.trans agrees.symm⟩
    permissionFlash := otherHolds.permissionFlash.congr agrees.symm }⟩
  · intro i notZtd
    simp only [CertStore.cleared, CertStore.freeCertStore, if_neg notZtd]
  · intro provider mem
    obtain ⟨registered, _, rfl⟩ := List.mem_map.mp mem
    rfl

/-! A machine that an Owner was enrolled on, and one that was never used, with other random numbers. -/

def defaultingPlatform : Platform := { keyedPlatform with setDefaultValue := fun _ _ => (.success, [0]) }

def otherPlatform : Platform := { defaultingPlatform with getRng := fun call => .ok (call + 7) }

def oneProvider (value : List Byte) : Providers :=
  ⟨[⟨.ofString "Device.CameraFront.Enable", .enable, SettingFlags.noPrebootUi, value⟩], [], by
    intro provider mem
    rw [List.mem_singleton.mp mem]
    exact (by decide : AsciiString.startsWithDigit (.ofString "Device.CameraFront.Enable") = false)⟩

def ownerMailboxes : MailBox → Except Nat (List Byte)
  | .identity => .ok (enrollPacket 1 1 1)
  | .permissions => .ok (packetBytes permissionPolicyApplyVarSignature 0 [0x3C] (signedWith 1))
  | _ => .error 14

def identityMailbox (bytes : List Byte) : MailBox → Except Nat (List Byte)
  | .identity => .ok bytes
  | _ => .error 14

def ownedMachine : Machine :=
  Runs.run (step defaultingPlatform) (blank (oneProvider [1]) 0)
    [.boot {}, .mailboxes confirmingUser confirmingUser (identityMailbox (enrollPacket 1 1 1)), .authWithPW .null 0]

def freshMachine : Machine :=
  Runs.run (step otherPlatform) (blank (oneProvider [2]) 0) [.boot {}, .authWithPW .null 0]

theorem clearDfci_complete_owned : ownedMachine.certs.provisionedCert .signerOwner = some [1] ∧ ∃ certs hidden,
      (∀ i, i ≠ certZtdIndex → certs.certs i = .empty) ∧ (∀ provider ∈ hidden, provider.value = [0]) ∧
      HoldsOnly defaultingPlatform (ownedMachine.clearDfci defaultingPlatform 3).2 certs
        (PermissionStore.initPermStore defaultingPlatform) hidden ∧
      HoldsOnly otherPlatform (freshMachine.clearDfci otherPlatform 7).2 certs
        (PermissionStore.initPermStore defaultingPlatform) hidden := by
  have same : SameFirmware defaultingPlatform otherPlatform := ⟨rfl, rfl, rfl, rfl⟩
  have owned : ownedMachine.Reachable defaultingPlatform := ⟨_, _, _, rfl⟩
  have fresh : freshMachine.Reachable otherPlatform := ⟨_, _, _, rfl⟩
  refine ⟨by decide +kernel, ?_⟩
  exact clearDfci_complete same (fun _ _ => rfl) (fun _ _ => rfl) rfl rfl owned fresh (by decide +kernel)
    (by decide +kernel) (by decide +kernel) (by decide +kernel)

end Machine

end Dfci
