import Dfci.Permission.NoAuthority
import Dfci.Settings.Packet

/-! # Settings packets whose signer may write none of their settings

Such a packet sets nothing, because every path to a provider goes through `HasWritePermissions`. Its `Version` and
`LowestSupportedVersion`, on the other hand, are taken over before the settings are tried. -/

namespace Dfci

/-- The identity under whose permissions the settings of a packet are tried, if the packet gets that far. -/
def settingsSigner (p : Platform) (certs : CertStore) (auth : AuthState) (data : Packet) :
    Option Identity :=
  if data.state = .dataPresent ∧ validateSettingsPacket data = .success ∧
      (checkAuthAndGetToken p certs auth data).1 = .success then
    match data.signature with
    | none => some .unsignedLocal
    | some signature => signerOf p certs data.signedBytes (data.certificateAt signature)
  else
    none

theorem checkAuthAndGetToken_success {p : Platform} {certs : CertStore} {auth after : AuthState}
    {data : Packet} {token : AuthToken} (present : data.state = .dataPresent)
    (valid : validateSettingsPacket data = .success)
    (authenticates : checkAuthAndGetToken p certs auth data = (.success, token, after)) :
    ∃ identity, settingsSigner p certs auth data = some identity ∧
      after.getIdentityProperties token = .ok identity := by
  rw [settingsSigner, if_pos ⟨present, valid, by rw [authenticates]⟩]
  rw [checkAuthAndGetToken] at authenticates
  cases signature : data.signature with
  | none =>
    rw [signature] at authenticates
    exact ⟨_, rfl, AuthState.authWithPW_success authenticates⟩
  | some offset =>
    rw [signature] at authenticates
    exact authWithSignedData_success authenticates

namespace Providers

section

variable (p : Platform) (req : WriteRequest)

def providerWritable (providers : Providers) (provider : SettingProvider) : Bool :=
  req.hasWritePermissions providers.groups provider.id = .ok true

def writable (providers : Providers) (id : SettingId) : Bool :=
  match providers.findProviderById p id with
  | some provider => providerWritable req providers provider
  | none =>
    match findGroup providers.groups id with
    | none => false
    | some group =>
      group.members.any fun mem =>
        (providers.findProviderById p mem).any (providerWritable req providers)

end

section

variable {p : Platform} {req : WriteRequest} {providers : Providers}

theorem findProviderById_mem {id : SettingId} {provider : SettingProvider}
    (found : providers.findProviderById p id = some provider) : provider ∈ providers.list := by
  obtain ⟨realId, _, inList⟩ := Option.bind_eq_some_iff.mp found
  exact List.mem_of_find?_eq_some inList

/-- A registered provider is found under its own id, if not itself then one of the same id. -/
theorem findProviderById_self (p : Platform) {provider : SettingProvider} (mem : provider ∈ providers.list) :
    ∃ other, providers.findProviderById p provider.id = some other := by
  have plain := providers.named provider mem
  have found : (providers.list.find? fun other => sameSettingId other.id provider.id).isSome := by
    rw [List.find?_isSome]
    exact ⟨provider, mem, by simp [sameSettingId]⟩
  obtain ⟨other, isOther⟩ := Option.isSome_iff_exists.mp found
  exact ⟨other, by simp [findProviderById, plain, isOther]⟩

theorem setIndividualSettings_denied (p : Platform) {provider : SettingProvider} (mem : provider ∈ providers.list)
    (denied : providerWritable req providers provider = false) (value : AsciiString) (flags : SettingFlags) :
    ∃ status, setIndividualSettings p req providers provider value flags = ⟨status, flags, providers⟩ := by
  rw [setIndividualSettings]
  split
  · exact ⟨_, rfl⟩
  · split
    · exact ⟨_, rfl⟩
    · obtain ⟨other, found⟩ := findProviderById_self p mem
      simp only [internalSystemSettingAccessSet, found, accessSetProvider]
      simp only [providerWritable, decide_eq_false_iff_not] at denied
      split
      · exact ⟨_, rfl⟩
      · exact ⟨_, rfl⟩
      · contradiction

theorem setMembersFromAscii_denied (value : AsciiString) {ids : List SettingId}
    (denied : ∀ id ∈ ids, (providers.findProviderById p id).any (providerWritable req providers) = false)
    (returnStatus : EfiStatus) (flags : SettingFlags) :
    ∃ status, setMembersFromAscii p req value ids returnStatus flags providers = ⟨status, flags, providers⟩ := by
  induction ids generalizing returnStatus with
  | nil => exact ⟨returnStatus, rfl⟩
  | cons id ids ih =>
    have deniedFirst := denied id List.mem_cons_self
    rw [setMembersFromAscii]
    cases found : providers.findProviderById p id with
    | none => exact ⟨_, rfl⟩
    | some provider =>
      rw [found, Option.any_some] at deniedFirst
      obtain ⟨status, stays⟩ := setIndividualSettings_denied p (findProviderById_mem found) deniedFirst value flags
      simp only [stays]
      exact ih (fun other mem => denied other (List.mem_cons_of_mem _ mem)) _

/-- A setting that may not be written is not set, and the caller's flags stay. -/
theorem setSettingFromAscii_denied {id : SettingId} (denied : providers.writable p req id = false)
    (value : AsciiString) (flags : SettingFlags) :
    ∃ status, setSettingFromAscii p req providers id value flags = ⟨status, flags, providers⟩ := by
  rw [writable] at denied
  rw [setSettingFromAscii]
  split
  · exact ⟨_, rfl⟩
  · cases found : providers.findProviderById p id with
    | some provider =>
      rw [found] at denied
      exact setIndividualSettings_denied p (findProviderById_mem found) denied value flags
    | none =>
      rw [found] at denied
      cases isGroup : findGroup providers.groups id with
      | none => exact ⟨_, rfl⟩
      | some group =>
        simp only [isGroup, List.any_eq_false] at denied
        exact setMembersFromAscii_denied value (fun id mem => by simpa using denied id mem) _ flags

end

end Providers

namespace SettingsState

open SettingsXml

section

variable (p : Platform) (req : WriteRequest)

def namedSettings (xml : List Byte) : List SettingId :=
  match (do readListNode (← readPacketNode p xml) : Except PacketError XmlNode) with
  | .error _ => []
  | .ok list => list.children.filterMap fun element => (getInputSettings element).toOption.map Prod.fst

def deniedResults (providers : Providers) : List XmlNode → Except PacketError (List SettingResult)
  | [] => .ok []
  | element :: elements =>
    match getInputSettings element with
    | .error _ => .error badXml
    | .ok (id, value) =>
      if id.chars = [] then
        .error ⟨.dataSystemError, .deviceError, .refl true, .refl true⟩
      else do
        let results ← deniedResults providers elements
        .ok ((id, (Providers.setSettingFromAscii p req providers id value 0).status, 0) :: results)

/-- The checks of a document whose settings are all denied: its internal data, and the size of its result. -/
def checkDenied (providers : Providers) (internal : InternalData) (xml : List Byte) :
    Except PacketError (InternalData × Nat) := do
  let (updated, list) ← readDocument p internal xml
  let results ← deniedResults p req providers list.children
  let size ← checkResultXml p results
  .ok (updated, size)

end

section

variable {p : Platform} {req : WriteRequest} {providers : Providers}

theorem applyElements_denied {elements : List XmlNode}
    (denied : ∀ element ∈ elements, ∀ id value, getInputSettings element = .ok (id, value) →
      providers.writable p req id = false) (resetRequired : Bool) (before : List SettingResult) :
    applyElements p req elements providers resetRequired before =
      ⟨providers, resetRequired, (deniedResults p req providers elements).map (before ++ ·)⟩ := by
  induction elements generalizing before with
  | nil => simp [applyElements, deniedResults, Except.map]
  | cons element elements ih =>
    rw [applyElements, deniedResults]
    cases reads : getInputSettings element with
    | error status => rfl
    | ok input =>
      obtain ⟨id, value⟩ := input
      obtain ⟨status, stays⟩ :=
        Providers.setSettingFromAscii_denied (denied element List.mem_cons_self id value reads) value 0
      have noReset : (resetRequired || (0 : SettingFlags) &&& SettingFlags.outRebootRequired != 0) = resetRequired := by
        simp
      simp only [stays, noReset]
      by_cases empty : id.chars = []
      · simp [empty, Except.map]
      · rw [if_neg empty, if_neg empty, ih fun other mem => denied other (List.mem_cons_of_mem _ mem)]
        cases deniedResults p req providers elements with
        | error failure => rfl
        | ok results => simp [Except.map, bind, Except.bind]

/-- Without authority a settings packet is a check of its document. -/
theorem applySettings_denied {xml : List Byte}
    (denied : ∀ id ∈ namedSettings p xml, providers.writable p req id = false)
    (internal : InternalData) (resetRequired : Bool) : applySettings p req internal xml providers resetRequired =
      ⟨providers, resetRequired, checkDenied p req providers internal xml⟩ := by
  rw [applySettings, checkDenied]
  cases reads : readDocument p internal xml with
  | error failure => rfl
  | ok document =>
    obtain ⟨updated, list⟩ := document
    obtain ⟨packet, isPacket, rest⟩ := Fallible.bind_eq_ok.mp reads
    obtain ⟨_, _, rest⟩ := Fallible.bind_eq_ok.mp rest
    obtain ⟨_, isList, result⟩ := Fallible.bind_eq_ok.mp rest
    cases result
    have elements : ∀ element ∈ list.children, ∀ id value, getInputSettings element = .ok (id, value) →
        providers.writable p req id = false := by
      intro element mem id value isInput
      apply denied
      simp only [namedSettings, isPacket, isList, bind, Except.bind]
      exact List.mem_filterMap.mpr ⟨element, mem, by simp [isInput, Except.toOption]⟩
    simp only [applyElements_denied elements, List.nil_append, bind, Except.bind, Except.map]
    cases deniedResults p req providers list.children <;> rfl

/-- The new internal data is marked as modified where its versions differ. -/
theorem readVersions_modified {internal updated : InternalData} {packet : XmlNode}
    (reads : readVersions internal packet = .ok updated) (unmodified : updated.modified = false) :
    updated.currentVersion = internal.currentVersion ∧ updated.lsv = internal.lsv := by
  simp only [readVersions] at reads
  split at reads
  · contradiction
  · split at reads
    · contradiction
    · split at reads
      · contradiction
      · split at reads
        · contradiction
        · split at reads
          · contradiction
          · split at reads
            · contradiction
            · cases reads
              simp only [Bool.or_eq_false_iff, bne_eq_false_iff_eq, decide_eq_false_iff_not] at unmodified
              obtain ⟨⟨_, sameVersion⟩, notAbove⟩ := unmodified
              exact ⟨sameVersion.symm, Nat.max_eq_left (Nat.le_of_not_lt notAbove)⟩

end

section

variable {p : Platform} {box : MailBox} {certs : CertStore} {store : Option PermissionStore} {auth : AuthState}
  {settings : SettingsState} {data : Packet}

/-- A packet that is turned away before its document is read changes nothing. -/
theorem applyNewSettingsPacket_rejected (rejected : settingsSigner p certs auth data = none) :
    (applyNewSettingsPacket p box certs store auth settings data).settings = settings := by
  simp only [applyNewSettingsPacket, PacketApplied.cleanup]
  by_cases present : data.state = .dataPresent
  · rw [if_neg (not_not_intro present)]
    cases valid : validateSettingsPacket data with
    | error code => rfl
    | success =>
      rcases authenticates : checkAuthAndGetToken p certs auth data with ⟨status, token, after⟩
      cases status with
      | success =>
        obtain ⟨identity, signs, _⟩ := checkAuthAndGetToken_success present valid authenticates
        rw [rejected] at signs
        contradiction
      | error code =>
        simp [applyLoaded, validateAndAuthenticateSettings, authenticates, updateSettingsResult, Packet.fail]
  · rw [if_pos present]

/-- The document of an authenticated packet is applied with the permissions of its signer, and its versions are saved
if that succeeds. -/
theorem applyNewSettingsPacket_signed {identity : Identity}
    (signs : settingsSigner p certs auth data = some identity) :
    (applyNewSettingsPacket p box certs store auth settings data).settings =
      let applied := applySettings p ⟨store, .ok identity⟩ (InternalData.loadOrInit p settings.flash)
        data.payloadText settings.providers data.resetRequired
      { providers := applied.providers
        flash := match applied.outcome with
          | .error _ => settings.flash
          | .ok (internal, _) => (internal.saveToFlash p settings.flash).2 } := by
  have checks : data.state = .dataPresent ∧ validateSettingsPacket data = .success ∧
      (checkAuthAndGetToken p certs auth data).1 = .success := by
    rw [settingsSigner] at signs
    split at signs
    · assumption
    · contradiction
  obtain ⟨present, valid, succeeds⟩ := checks
  rcases authenticates : checkAuthAndGetToken p certs auth data with ⟨status, token, after⟩
  rw [authenticates] at succeeds
  change status = .success at succeeds
  subst succeeds
  obtain ⟨same, isSame, stands⟩ := checkAuthAndGetToken_success present valid authenticates
  rw [signs, Option.some_inj] at isSame
  subst isSame
  have document : Packet.payloadText { data with state := .dataAuthenticated, authToken := token } =
      data.payloadText := rfl
  simp only [applyNewSettingsPacket, PacketApplied.cleanup, present, ne_eq, not_true, if_false, valid, applyLoaded,
    validateAndAuthenticateSettings, authenticates, stands, document]
  cases outcome : (applySettings p ⟨store, .ok identity⟩ (InternalData.loadOrInit p settings.flash)
      data.payloadText settings.providers data.resetRequired).outcome with
  | error failure =>
    simp only [updateSettingsResult, Packet.fail, failure.isError, if_true]
    split <;> rfl
  | ok pair =>
    obtain ⟨internal, size⟩ := pair
    simp [updateSettingsResult]

/-- A packet that may write none of its settings moves no state exactly when it is turned away, or its versions are
refused, or they are those that are stored already. -/
theorem unauthorized_settings_unchanged_iff
    (unauthorized : ∀ identity, settingsSigner p certs auth data = some identity →
      ∀ id ∈ namedSettings p data.payloadText, settings.providers.writable p ⟨store, .ok identity⟩ id = false) :
    ((applyNewSettingsPacket p box certs store auth settings data).settings.providers = settings.providers ∧
      InternalData.persistedVersions (applyNewSettingsPacket p box certs store auth settings data).settings.flash =
        InternalData.persistedVersions settings.flash) ↔
      ∀ identity updated size, settingsSigner p certs auth data = some identity →
        checkDenied p ⟨store, .ok identity⟩ settings.providers
          (InternalData.loadOrInit p settings.flash) data.payloadText = .ok (updated, size) →
        (p.setVariable .settingsVersions (updated.encode p.getTime)).isError = true ∨
        (updated.currentVersion, updated.lsv) = InternalData.persistedVersions settings.flash := by
  cases signs : settingsSigner p certs auth data with
  | none => simp [applyNewSettingsPacket_rejected signs]
  | some identity =>
    rw [applyNewSettingsPacket_signed signs, applySettings_denied (unauthorized identity signs)]
    simp only [true_and]
    cases checked : checkDenied p ⟨store, .ok identity⟩ settings.providers
        (InternalData.loadOrInit p settings.flash) data.payloadText with
    | error failure =>
      refine ⟨?_, fun _ => rfl⟩
      rintro _ _ updated size ⟨⟩ isOk
      rw [checked] at isOk
      contradiction
    | ok pair =>
      obtain ⟨updated, size⟩ := pair
      have kept : updated.modified = false → (updated.currentVersion, updated.lsv) =
          InternalData.persistedVersions settings.flash := by
        intro unmodified
        obtain ⟨⟨same, list⟩, reads, rest⟩ := Fallible.bind_eq_ok.mp checked
        obtain ⟨_, _, rest⟩ := Fallible.bind_eq_ok.mp rest
        obtain ⟨_, _, result⟩ := Fallible.bind_eq_ok.mp rest
        cases result
        obtain ⟨packet, _, rest⟩ := Fallible.bind_eq_ok.mp reads
        obtain ⟨_, isUpdated, rest⟩ := Fallible.bind_eq_ok.mp rest
        obtain ⟨_, _, result⟩ := Fallible.bind_eq_ok.mp rest
        cases result
        obtain ⟨version, lsv⟩ := readVersions_modified isUpdated unmodified
        rw [InternalData.persistedVersions_eq p, version, lsv]
      rw [InternalData.persistedVersions_saveToFlash]
      constructor
      · rintro unchanged _ _ _ ⟨⟩ isOk
        rw [checked] at isOk
        cases isOk
        by_contra both
        rw [not_or, Bool.not_eq_true] at both
        have modified : updated.modified = true := by
          by_contra unmodified
          exact both.2 (kept (by simpa using unmodified))
        rw [if_pos ⟨modified, both.1⟩] at unchanged
        exact both.2 unchanged
      · intro condition
        split
        · rename_i accepted
          rcases condition identity updated size rfl checked with refused | same
          · rw [accepted.2] at refused
            contradiction
          · exact same
        · rfl

end

/-! ## An unsigned packet on a machine that grants it nothing -/

open PermissionState

def enableSetting1 (version lsv : String) : XmlNode :=
  .node true packetElementName (.ofString "") []
    [.leaf versionElementName (.ofString version), .leaf lsvElementName (.ofString lsv),
      .node false listElementName (.ofString "") []
        [.node false (.ofString "Setting") (.ofString "") []
          [.leaf idElementName (.ofString "Device.PlatformSetting1.Enable"),
            .leaf valueElementName (.ofString "Enabled")]]]

def settingsPlatform (document : XmlNode) : Platform where
  createXmlTree := fun _ => .ok document

def unsignedSettings : Packet :=
  { Packet.allocated 0 0 with
    packet := some [0, 0x3C]
    signedDataLength := 2
    state := .dataPresent
    payload := some 1
    payloadSize := 1 }

def disabledSetting1 : SettingsState where
  providers := ⟨[⟨.ofString "Device.PlatformSetting1.Enable", .enable, 0, [0]⟩], [], by decide⟩
  flash := none

/-- The packet may write nothing, and still raises the stored versions from nothing to 9. -/
theorem unsigned_settings_raise_versions :
    settingsSigner (settingsPlatform (enableSetting1 "9" "9")) ztdAndOwnerCerts (.loaded 0) unsignedSettings =
        some .unsignedLocal ∧
    (∀ id ∈ namedSettings (settingsPlatform (enableSetting1 "9" "9")) unsignedSettings.payloadText,
      disabledSetting1.providers.writable (settingsPlatform (enableSetting1 "9" "9"))
        ⟨(ownerBoot (settingsPlatform (enableSetting1 "9" "9"))).store, .ok .unsignedLocal⟩ id = false) ∧
    InternalData.persistedVersions disabledSetting1.flash = (0, 0) ∧
    InternalData.persistedVersions (applyNewSettingsPacket (settingsPlatform (enableSetting1 "9" "9")) .settings
      ztdAndOwnerCerts (ownerBoot (settingsPlatform (enableSetting1 "9" "9"))).store (.loaded 0)
      disabledSetting1 unsignedSettings).settings.flash = (9, 9) := by
  refine ⟨?_, ?_, ?_, ?_⟩ <;> decide +kernel

/-- With the versions that are stored, nothing moves. -/
theorem unsigned_settings_repeat_versions :
    (applyNewSettingsPacket (settingsPlatform (enableSetting1 "0" "0")) .settings ztdAndOwnerCerts
      (ownerBoot (settingsPlatform (enableSetting1 "0" "0"))).store (.loaded 0) disabledSetting1
      unsignedSettings).settings.providers = disabledSetting1.providers ∧
    InternalData.persistedVersions (applyNewSettingsPacket (settingsPlatform (enableSetting1 "0" "0")) .settings
      ztdAndOwnerCerts (ownerBoot (settingsPlatform (enableSetting1 "0" "0"))).store (.loaded 0) disabledSetting1
      unsignedSettings).settings.flash = InternalData.persistedVersions disabledSetting1.flash := by
  have signs : settingsSigner (settingsPlatform (enableSetting1 "0" "0")) ztdAndOwnerCerts (.loaded 0)
      unsignedSettings = some .unsignedLocal := by
    decide +kernel
  have unauthorized : ∀ id ∈ namedSettings (settingsPlatform (enableSetting1 "0" "0")) unsignedSettings.payloadText,
      disabledSetting1.providers.writable (settingsPlatform (enableSetting1 "0" "0"))
        ⟨(ownerBoot (settingsPlatform (enableSetting1 "0" "0"))).store, .ok .unsignedLocal⟩ id = false := by
    decide +kernel
  have repeats : (checkDenied (settingsPlatform (enableSetting1 "0" "0"))
      ⟨(ownerBoot (settingsPlatform (enableSetting1 "0" "0"))).store, .ok .unsignedLocal⟩ disabledSetting1.providers
      (InternalData.loadOrInit (settingsPlatform (enableSetting1 "0" "0")) disabledSetting1.flash)
      unsignedSettings.payloadText).toOption.map (fun checked => (checked.1.currentVersion, checked.1.lsv)) =
        some (0, 0) := by
    decide +kernel
  generalize (ownerBoot (settingsPlatform (enableSetting1 "0" "0"))).store = store at *
  refine (unauthorized_settings_unchanged_iff ?_).mpr ?_
  · intro identity isSigner
    rw [signs] at isSigner
    cases isSigner
    exact unauthorized
  · intro identity updated size isSigner checked
    rw [signs] at isSigner
    cases isSigner
    rw [checked] at repeats
    exact .inr (Option.some_inj.mp repeats)

end SettingsState

end Dfci
