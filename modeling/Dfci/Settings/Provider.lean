import Dfci.Permission.Access
import Dfci.Platform

/-! # Setting providers

A provider owns one setting. Its functions belong to the driver that registered it, so they are the platform's; the
manager looks providers up, turns the text of a value into the bytes of the provider's type, and calls them. -/

namespace Dfci

open FirstMatch

/-- `DFCI_SETTING_TYPE` -/
inductive SettingType where
  | enable
  | secureBootKeyEnum
  | password
  | usbPortEnum
  | string
  | binary
  | cert
  | undefined
  deriving DecidableEq, Repr

/-- `DFCI_SETTING_PROVIDER`, with the value its functions keep. -/
structure SettingProvider where
  id : SettingId
  type : SettingType
  flags : SettingFlags
  value : List Byte
  deriving DecidableEq

namespace SettingFlags

def outRebootRequired : SettingFlags := 0x1
def outAlreadySet : SettingFlags := 0x80000000
def noPrebootUi : SettingFlags := 0x0001000000000000

end SettingFlags

/-- `mProviderList` and `mGroupList`. `RegisterProvider` refuses a numeric id. -/
structure Providers where
  list : List SettingProvider
  groups : List Group
  named : ∀ provider ∈ list, provider.id.startsWithDigit = false
  deriving DecidableEq

namespace Providers

def empty : Providers := ⟨[], [], nofun⟩

/-- `FindProviderById`. A numeric id that cannot be translated has no provider. -/
def findProviderById (p : Platform) (providers : Providers) (id : SettingId) : Option SettingProvider :=
  let realId := if id.startsWithDigit then p.v1TranslateString id else some id
  realId.bind fun realId => providers.list.find? fun provider => sameSettingId provider.id realId

def setValue (providers : Providers) (provider : SettingProvider) (value : List Byte) : Providers :=
  { providers with
    list := modifyFirst (fun other => other.id = provider.id) (fun other => { other with value := value })
      providers.list
    named := by
      intro other mem
      rcases mem_modifyFirst mem with old | ⟨original, found, rfl⟩
      · exact providers.named other old
      · exact providers.named original (List.mem_of_find?_eq_some found) }

end Providers

/-- Who asks for a setting to be set: the store that is asked, and the identity its token stands for. -/
structure WriteRequest where
  store : Option PermissionStore
  properties : Except EfiStatus Identity

/-- `HasWritePermissions`, with its answers for a missing store or an unknown token. -/
def WriteRequest.hasWritePermissions (req : WriteRequest) (groups : List Group) (id : SettingId) :
    Except EfiStatus Bool :=
  match req.store with
  | none => .error .notReady
  | some store =>
    match req.properties with
    | .error status => .error status
    | .ok identity => .ok (PermissionStore.hasWritePermissions groups store identity id)

/-- What a call to set a setting leaves: the status, the caller's flags, and the providers. -/
structure SettingSet where
  status : EfiStatus
  flags : SettingFlags
  providers : Providers

namespace Providers

section

variable (p : Platform) (req : WriteRequest)

/-- `InternalSystemSettingAccessSet`, from the permission check on, for a provider that was found. -/
def accessSetProvider (providers : Providers) (provider : SettingProvider) (id : SettingId) (type : SettingType)
    (value : List Byte) (flags : SettingFlags) : SettingSet :=
  match req.hasWritePermissions providers.groups id with
  | .error status => ⟨status, flags, providers⟩
  | .ok false => ⟨.accessDenied, flags, providers⟩
  | .ok true =>
    if type ≠ provider.type then
      ⟨.invalidParameter, flags, providers⟩
    else
      match p.setSettingValue provider.id flags value provider.value with
      | (.error code, flags, kept) => ⟨.error code, flags, providers.setValue provider kept⟩
      | (.success, flags, kept) =>
        let notified :=
          if flags &&& SettingFlags.outAlreadySet = 0 then p.settingChangedNotification id value flags
          else .success
        ⟨notified, flags, providers.setValue provider kept⟩

/-- The call of `InternalSystemSettingAccessSet` for a member of a group, where a second group is refused. -/
def accessSetMember (providers : Providers) (id : SettingId) (type : SettingType) (value : List Byte)
    (flags : SettingFlags) : SettingSet :=
  match providers.findProviderById p id with
  | none => ⟨.unsupported, flags, providers⟩
  | some provider => accessSetProvider p req providers provider id type value flags

def forMembers (set : Providers → SettingId → SettingFlags → SettingSet) :
    List SettingId → EfiStatus → SettingFlags → Providers → SettingSet
  | [], returnStatus, flags, providers => ⟨returnStatus, flags, providers⟩
  | id :: ids, returnStatus, flags, providers =>
    let done := set providers id flags
    forMembers set ids (if done.status.isError then done.status else returnStatus) done.flags done.providers

/-- `InternalSystemSettingAccessSet` -/
def internalSystemSettingAccessSet (providers : Providers) (id : SettingId) (type : SettingType) (value : List Byte)
    (flags : SettingFlags) : SettingSet :=
  match providers.findProviderById p id with
  | some provider => accessSetProvider p req providers provider id type value flags
  | none =>
    match findGroup providers.groups id with
    | none => ⟨.notFound, flags, providers⟩
    | some group =>
      forMembers (fun providers id flags => accessSetMember p req providers id type value flags)
        group.members .success flags providers

end

/-! ## Values as text -/

/-- A value that is one of a few words, as the byte that stands for it. -/
def wordValue (words : List (String × Byte)) (value : AsciiString) : Except EfiStatus (List Byte) :=
  match words.find? fun word => AsciiString.ofString word.1 = value with
  | none => .error .invalidParameter
  | some word => .ok [word.2]

def enableWords : List (String × Byte) := [("Enabled", 1), ("Disabled", 0)]

def secureBootKeyWords : List (String × Byte) := [("MsOnly", 0), ("MsPlus3rdParty", 1), ("None", 2)]

def usbPortWords : List (String × Byte) :=
  [("UsbPortEnabled", 0), ("UsbPortHwDisabled", 0xF0), ("UsbPortDataDisabled", 0xF1), ("UsbPortAuthenticated", 0xF2)]

/-- A password is hexadecimal text that ends in `eb`. -/
def passwordValue (p : Platform) (value : AsciiString) : Except EfiStatus (List Byte) :=
  let size := value.chars.length
  if size < 4 ∨ size % 2 = 1 then
    .error .invalidParameter
  else if (value.chars.drop (size - 2)).map (fun char => char ||| 0x20) ≠ [0x65, 0x62] then
    .error .invalidParameter
  else
    match p.asciiStrHexToBytes (value.chars.take (size - 2)) with
    | .error _ => .error .invalidParameter
    | .ok bytes => .ok bytes

/-- The longest text of a value, `MAX_ALLOWABLE_DFCI_APPLY_VAR_SIZE`. -/
def maxValueSize : Nat := 1024 * 24

/-- The conversions of `SetProviderValueFromAscii` -/
def valueFromAscii (p : Platform) (type : SettingType) (value : AsciiString) : Except EfiStatus (List Byte) :=
  match type with
  | .enable => wordValue enableWords value
  | .secureBootKeyEnum => wordValue secureBootKeyWords value
  | .password => passwordValue p value
  | .usbPortEnum => wordValue usbPortWords value
  | .string => if maxValueSize < value.chars.length then .error .invalidParameter else .ok value.toMemory
  | .binary | .cert =>
    match p.base64Decode (value.chars.take maxValueSize) with
    | .error _ => .error .invalidParameter
    -- no bytes need no buffer, so the first call does not answer EFI_BUFFER_TOO_SMALL
    | .ok [] => .error .invalidParameter
    | .ok bytes => .ok bytes
  | .undefined => .error .invalidParameter

section

variable (p : Platform) (req : WriteRequest)

/-- `SetIndividualSettings`, which `SetProviderValueFromAscii` ends. The parser gives no text for an empty value. -/
def setIndividualSettings (providers : Providers) (provider : SettingProvider) (value : AsciiString)
    (flags : SettingFlags) : SettingSet :=
  if provider.type ≠ .string ∧ provider.type ≠ .cert ∧ value.chars = [] then
    ⟨.unsupported, flags, providers⟩
  else
    match valueFromAscii p provider.type value with
    | .error status => ⟨status, flags, providers⟩
    | .ok bytes => internalSystemSettingAccessSet p req providers provider.id provider.type bytes flags

/-- The member loop of `SetSettingFromAscii`, which ends at a member that has no provider. -/
def setMembersFromAscii (value : AsciiString) :
    List SettingId → EfiStatus → SettingFlags → Providers → SettingSet
  | [], returnStatus, flags, providers => ⟨returnStatus, flags, providers⟩
  | id :: ids, returnStatus, flags, providers =>
    match providers.findProviderById p id with
    | none => ⟨.notFound, flags, providers⟩
    | some provider =>
      let done := setIndividualSettings p req providers provider value flags
      setMembersFromAscii value ids (if done.status.isError then done.status else returnStatus) done.flags
        done.providers

/-- `SetSettingFromAscii` -/
def setSettingFromAscii (providers : Providers) (id : SettingId) (value : AsciiString) (flags : SettingFlags) :
    SettingSet :=
  if id.chars = [] then
    ⟨.unsupported, flags, providers⟩
  else
    match providers.findProviderById p id with
    | some provider => setIndividualSettings p req providers provider value flags
    | none =>
      match findGroup providers.groups id with
      | none => ⟨.notFound, flags, providers⟩
      | some group => setMembersFromAscii p req value group.members .success flags providers

end

/-- One turn of `ResetAllProvidersToDefaultsWithMatchingFlags`. -/
def resetProvider (p : Platform) (filterFlag : SettingFlags) (provider : SettingProvider) : SettingProvider :=
  if provider.flags &&& filterFlag = 0 then provider
  else { provider with value := (p.setDefaultValue provider.id provider.value).2 }

theorem resetProvider_id (p : Platform) (filterFlag : SettingFlags) (provider : SettingProvider) :
    (resetProvider p filterFlag provider).id = provider.id := by
  rw [resetProvider]
  split <;> rfl

/-- `ResetAllProvidersToDefaultsWithMatchingFlags`, which goes on after a provider that fails. -/
def resetAllProvidersToDefaultsWithMatchingFlags (p : Platform) (filterFlag : SettingFlags)
    (providers : Providers) : Providers :=
  { providers with
    list := providers.list.map (resetProvider p filterFlag)
    named := by
      intro other mem
      obtain ⟨provider, inList, rfl⟩ := List.mem_map.mp mem
      rw [resetProvider_id]
      exact providers.named provider inList }

end Providers

end Dfci
