import Dfci.Settings.Authorised

/-! # The repository's own providers

The libraries of the repository register twelve settings. Two of them are registered with
`DFCI_SETTING_FLAGS_OUT_REBOOT_REQUIRED`; of these the password raises the flag when it is set, and `DfciWpbtSettingSet`
does not. -/

namespace Dfci

inductive OwnSetting where
  | wpbt
  | password
  | virtualization
  | sample
  | recoveryUrl
  | bootstrapUrl
  | httpsCert
  | registrationId
  | tenantId
  | friendlyName
  | tenantName
  | assetTag
  deriving DecidableEq, Repr

namespace OwnSetting

def all : List OwnSetting :=
  [.wpbt, .password, .virtualization, .sample, .recoveryUrl, .bootstrapUrl, .httpsCert, .registrationId, .tenantId,
    .friendlyName, .tenantName, .assetTag]

def id : OwnSetting → SettingId
  | .wpbt => .ofString "Dfci3.OnboardWpbt.Enable"
  | .password => .ofString "Device.Password.Password"
  | .virtualization => .ofString "Device.CpuAndIoVirtualization.Enable"
  | .sample => .ofString "Oem.Setting1.Enable"
  | .recoveryUrl => .ofString "Dfci.RecoveryUrl.String"
  | .bootstrapUrl => .ofString "Dfci.RecoveryBootstrapUrl.String"
  | .httpsCert => .ofString "Dfci.HttpsCert.Binary"
  | .registrationId => .ofString "Dfci.RegistrationId.String"
  | .tenantId => .ofString "Dfci.TenantId.String"
  | .friendlyName => .ofString "MDM.FriendlyName.String"
  | .tenantName => .ofString "MDM.TenantName.String"
  | .assetTag => .ofString "Dfci3.AssetTag.String"

def type : OwnSetting → SettingType
  | .wpbt | .virtualization | .sample => .enable
  | .password => .password
  | .httpsCert => .cert
  | .recoveryUrl | .bootstrapUrl | .registrationId | .tenantId | .friendlyName | .tenantName | .assetTag => .string

def flags : OwnSetting → SettingFlags
  | .wpbt => SettingFlags.noPrebootUi ||| SettingFlags.outRebootRequired
  | .password => SettingFlags.outRebootRequired
  | .assetTag => 0
  | .virtualization | .sample | .recoveryUrl | .bootstrapUrl | .httpsCert | .registrationId | .tenantId | .friendlyName
  | .tenantName => SettingFlags.noPrebootUi

def registration (setting : OwnSetting) : SettingId × SettingType × SettingFlags :=
  (setting.id, setting.type, setting.flags)

theorem mem_all (setting : OwnSetting) : setting ∈ all := by
  cases setting <;> simp [all]

theorem nodup_ids : (all.map id).Nodup := by
  decide +kernel

theorem id_injective {first second : OwnSetting} (same : first.id = second.id) : first = second :=
  List.inj_on_of_nodup_map nodup_ids (mem_all first) (mem_all second) same

theorem find?_id (setting : OwnSetting) : (all.find? fun other => other.id = setting.id) = some setting := by
  have isSome : (all.find? fun other => other.id = setting.id).isSome = true :=
    List.find?_isSome.mpr ⟨setting, setting.mem_all, decide_eq_true rfl⟩
  obtain ⟨other, found⟩ := Option.isSome_iff_exists.mp isSome
  have hasId := List.find?_some found
  have same : other = setting := id_injective (of_decide_eq_true hasId)
  rw [found, same]

/-- Two settings are registered as needing a reboot. -/
theorem eq_of_flags {setting : OwnSetting} (needs : setting.flags &&& SettingFlags.outRebootRequired ≠ 0) :
    setting = .wpbt ∨ setting = .password := by
  cases setting <;> first | exact .inl rfl | exact .inr rfl | exact absurd rfl needs

end OwnSetting

/-- What the providers call. A variable that is not there has no data: UEFI keeps no empty variable. -/
structure ProviderServices where
  /-- The status of a `gRT->GetVariable` for a variable that is there, but for the size of the buffer. -/
  getVariable : OwnSetting → EfiStatus := fun _ => .success
  /-- The status of a `gRT->SetVariable` with the given data. -/
  setVariable : OwnSetting → List Byte → EfiStatus := fun _ _ => .success
  /-- `PasswordStoreSetPassword`, from what the store keeps and the new hash to what it keeps then. -/
  passwordStoreSetPassword : List Byte → List Byte → Except EfiStatus (List Byte) := fun _ new => .ok new
  /-- `PcdDfciAssetTagChars` and `PcdDfciAssetTagLen` -/
  assetTagChars : List Byte :=
    (AsciiString.ofString "0123456789-.ABCDEFGHIJKLMNOPQRSTUVWXYZabcdefghijklmnopqrstuvwxyz").chars
  assetTagLen : Nat := 36

namespace ProviderServices

/-- What a provider's `SetSettingValue` leaves: the status, the caller's flags and the value that is kept. -/
abbrev Answer := EfiStatus × SettingFlags × List Byte

/-- `DFCI_SETTING_MAXIMUM_SIZE` -/
def settingMaximumSize : Nat := 1024 * 16

section

variable (svc : ProviderServices)

/-- `gRT->GetVariable` into a buffer of the given size. -/
def readVariable (setting : OwnSetting) (current : List Byte) (size : Nat) : Except EfiStatus (List Byte) :=
  if current = [] then
    .error .notFound
  else
    match svc.getVariable setting with
    | .error code => .error (.error code)
    | .success => if size < current.length then .error .bufferTooSmall else .ok current

/-- The `gRT->SetVariable` at the end of a `SetSettingValue`. There is nothing to delete where no variable is. -/
def storeVariable (setting : OwnSetting) (flags : SettingFlags) (new current : List Byte) : Answer :=
  if new = [] ∧ current = [] then
    (.notFound, flags, current)
  else
    match svc.setVariable setting new with
    | .error code => (.error code, flags, current)
    | .success => (.success, flags, new)

def alreadySet (flags : SettingFlags) (current : List Byte) : Answer :=
  (.success, flags ||| SettingFlags.outAlreadySet, current)

/-- `DfciWpbtSettingGet` into one byte. The setting is enabled by default. -/
def dfciWpbtSettingGet (current : List Byte) : Except EfiStatus (List Byte) :=
  match svc.readVariable .wpbt current 1 with
  | .error status => if status = .notFound then .ok [1] else .error status
  | .ok value => .ok value

/-- `DfciWpbtSettingSet`. No path raises `DFCI_SETTING_FLAGS_OUT_REBOOT_REQUIRED`. -/
def dfciWpbtSettingSet (flags : SettingFlags) (new current : List Byte) : Answer :=
  if new.length ≠ 1 then
    (.invalidParameter, flags, current)
  else
    match svc.dfciWpbtSettingGet current with
    | .error status => (status, flags, current)
    | .ok value => if value = new then alreadySet flags current else svc.storeVariable .wpbt flags new current

/-- `PasswordSet`, which starts by clearing the caller's flags. -/
def passwordSet (_flags : SettingFlags) (new current : List Byte) : Answer :=
  match svc.passwordStoreSetPassword current new with
  | .error status => (status, 0, current)
  | .ok kept => (.success, SettingFlags.outRebootRequired, kept)

/-- `DfciVirtSettingsSet`. The value is `HARD_CODED_VIRTUALIZATION`. -/
def dfciVirtSettingsSet (flags : SettingFlags) (new current : List Byte) : Answer :=
  match new with
  | [] => (.invalidParameter, flags, current)
  | newValue :: _ => if newValue ≠ 1 then (.unsupported, flags, current) else alreadySet flags current

/-- `DfciSampleProviderSet`, which uses only the first byte. -/
def dfciSampleProviderSet (flags : SettingFlags) (new current : List Byte) : Answer :=
  if settingMaximumSize < new.length then
    (.invalidParameter, flags, current)
  else
    match new with
    | [] => (.invalidParameter, flags, current)
    | newValue :: _ => if [newValue] = current then alreadySet flags current else (.success, flags, [newValue])

/-- The size that `DfciSettingsGet` and `DfciAssetTagSettingGet` ask for. Strings default to the empty string and
certificates to nothing. -/
def currentSize (setting : OwnSetting) (current : List Byte) : Except EfiStatus Nat :=
  match svc.readVariable setting current 0 with
  | .ok value => .ok value.length
  | .error status =>
    if status = .notFound then .ok (if setting.type = .cert then 0 else 1)
    else if status = .bufferTooSmall then .ok current.length
    else .error status

/-- What `DfciSettingsSet` and `DfciAssetTagSettingSet` do with a value that they accept. -/
def setUnlessSame (setting : OwnSetting) (flags : SettingFlags) (new current : List Byte) : Answer :=
  match svc.currentSize setting current with
  | .error status => (status, flags, current)
  | .ok size =>
    if size = 0 ∧ new = [] then
      alreadySet flags current
    else if new ≠ [] ∧ size = new.length then
      match svc.readVariable setting current size with
      | .error status => (status, flags, current)
      | .ok value => if value = new then alreadySet flags current else svc.storeVariable setting flags new current
    else
      svc.storeVariable setting flags new current

/-- `DfciSettingsSet` -/
def dfciSettingsSet (setting : OwnSetting) (flags : SettingFlags) (new current : List Byte) : Answer :=
  if settingMaximumSize < new.length then (.invalidParameter, flags, current)
  else svc.setUnlessSame setting flags new current

/-- `ValidateAssetTagValue`: the first null is the last character, and the others are allowed. -/
def validateAssetTagValue (value : List Byte) : EfiStatus :=
  if svc.assetTagLen + 1 < value.length then .invalidParameter
  else
    match value.findIdx? (· = 0) with
    | none => .invalidParameter
    | some nul =>
      if nul ≠ value.length - 1 then .invalidParameter
      else if (value.take (value.length - 1)).all (· ∈ svc.assetTagChars) then .success
      else .invalidParameter

/-- `DfciAssetTagSettingSet` -/
def dfciAssetTagSettingSet (flags : SettingFlags) (new current : List Byte) : Answer :=
  match svc.validateAssetTagValue new with
  | .error code => (.error code, flags, current)
  | .success => svc.setUnlessSame .assetTag flags new current

/-- `SetSettingValue` of each provider. -/
def set : OwnSetting → SettingFlags → List Byte → List Byte → Answer
  | .wpbt => svc.dfciWpbtSettingSet
  | .password => svc.passwordSet
  | .virtualization => dfciVirtSettingsSet
  | .sample => dfciSampleProviderSet
  | .assetTag => svc.dfciAssetTagSettingSet
  | .recoveryUrl => svc.dfciSettingsSet .recoveryUrl
  | .bootstrapUrl => svc.dfciSettingsSet .bootstrapUrl
  | .httpsCert => svc.dfciSettingsSet .httpsCert
  | .registrationId => svc.dfciSettingsSet .registrationId
  | .tenantId => svc.dfciSettingsSet .tenantId
  | .friendlyName => svc.dfciSettingsSet .friendlyName
  | .tenantName => svc.dfciSettingsSet .tenantName

/-- `SetSettingValue` of the provider with an id. -/
def setSettingValue (id : SettingId) (flags : SettingFlags) (new current : List Byte) : Answer :=
  match OwnSetting.all.find? fun setting => setting.id = id with
  | some setting => svc.set setting flags new current
  | none => (.unsupported, flags, current)

theorem setSettingValue_id (setting : OwnSetting) : svc.setSettingValue setting.id = svc.set setting := by
  funext flags new current
  rw [setSettingValue, OwnSetting.find?_id]

end

end ProviderServices

/-! ## The flag that asks for a reboot -/

/-- `Flags & DFCI_SETTING_FLAGS_OUT_REBOOT_REQUIRED` -/
def SettingFlags.rebootRequired (flags : SettingFlags) : Bool :=
  flags &&& SettingFlags.outRebootRequired != 0

theorem SettingFlags.rebootRequired_alreadySet (flags : SettingFlags) :
    rebootRequired (flags ||| outAlreadySet) = flags.rebootRequired := by
  have apart : outRebootRequired &&& outAlreadySet = 0 := by decide
  have same : (flags ||| outAlreadySet) &&& outRebootRequired = flags &&& outRebootRequired := by
    rw [BitVec.and_comm, BitVec.and_or_distrib_left, apart, BitVec.and_comm]
    exact BitVec.or_zero
  rw [rebootRequired, same, rebootRequired]

namespace ProviderServices

section

variable (svc : ProviderServices)

def Silent (flags : SettingFlags) (answer : Answer) : Prop :=
  answer.2.1 = flags ∨ answer.2.1 = flags ||| SettingFlags.outAlreadySet

section

variable (setting : OwnSetting) (flags : SettingFlags) (new current : List Byte)

theorem silent_storeVariable : Silent flags (svc.storeVariable setting flags new current) := by
  rw [storeVariable]
  split
  · exact .inl rfl
  · split <;> exact .inl rfl

theorem silent_setUnlessSame : Silent flags (svc.setUnlessSame setting flags new current) := by
  rw [setUnlessSame]
  split
  · exact .inl rfl
  · split
    · exact .inr rfl
    · split
      · split
        · exact .inl rfl
        · split
          · exact .inr rfl
          · exact silent_storeVariable ..
      · exact silent_storeVariable ..

theorem silent_dfciSettingsSet : Silent flags (svc.dfciSettingsSet setting flags new current) := by
  rw [dfciSettingsSet]
  split
  · exact .inl rfl
  · exact silent_setUnlessSame ..

end

theorem silent_dfciWpbtSettingSet (flags : SettingFlags) (new current : List Byte) :
    Silent flags (svc.dfciWpbtSettingSet flags new current) := by
  rw [dfciWpbtSettingSet]
  split
  · exact .inl rfl
  · split
    · exact .inl rfl
    · split
      · exact .inr rfl
      · exact silent_storeVariable ..

/-- Only the password asks for a reboot. -/
theorem silent_set {setting : OwnSetting} (other : setting ≠ .password) (flags : SettingFlags) (new current : List Byte) :
    Silent flags (svc.set setting flags new current) := by
  cases setting with
  | password => exact absurd rfl other
  | wpbt => exact silent_dfciWpbtSettingSet ..
  | virtualization =>
    simp only [set, dfciVirtSettingsSet]
    split
    · exact .inl rfl
    · split
      · exact .inl rfl
      · exact .inr rfl
  | sample =>
    simp only [set, dfciSampleProviderSet]
    split
    · exact .inl rfl
    · split
      · exact .inl rfl
      · split
        · exact .inr rfl
        · exact .inl rfl
  | assetTag =>
    simp only [set, dfciAssetTagSettingSet]
    split
    · exact .inl rfl
    · exact silent_setUnlessSame ..
  | recoveryUrl | bootstrapUrl | httpsCert | registrationId | tenantId | friendlyName | tenantName =>
    exact silent_dfciSettingsSet ..

theorem Silent.rebootRequired {flags : SettingFlags} {answer : Answer} (silent : Silent flags answer) :
    answer.2.1.rebootRequired = flags.rebootRequired := by
  rcases silent with same | already
  · rw [same]
  · rw [already, SettingFlags.rebootRequired_alreadySet]

/-- A password that was stored asks for a reboot. -/
theorem passwordSet_reboots (flags : SettingFlags) (new current : List Byte) :
    (svc.passwordSet flags new current).2.1.rebootRequired = true ∨
      (svc.passwordSet flags new current).2.2 = current := by
  rw [passwordSet]
  split
  · exact .inr rfl
  · exact .inl (rfl : SettingFlags.outRebootRequired.rebootRequired = true)

/-- The value that `DfciWpbtSettingGet` gives for what the variable holds. -/
def wpbtValue (current : List Byte) : List Byte := if current = [] then [1] else current

theorem dfciWpbtSettingSet_same (flags : SettingFlags) {new current : List Byte} (same : new = wpbtValue current) :
    (svc.dfciWpbtSettingSet flags new current).2.2 = current := by
  rw [wpbtValue] at same
  split at same
  · -- there is no variable, and the new value is the default
    rename_i absent
    have default : svc.dfciWpbtSettingGet current = .ok new := by
      simp [dfciWpbtSettingGet, readVariable, absent, same]
    simp [dfciWpbtSettingSet, default, same, alreadySet]
  · -- whether the variable is written or not, it holds what it held
    rw [dfciWpbtSettingSet, same]
    repeat' split
    all_goals first | rfl | (rw [storeVariable]; repeat' split) <;> rfl

end

end ProviderServices

end Dfci
