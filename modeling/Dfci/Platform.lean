import Dfci.Xml

/-! # What the managers take from outside the repository -/

namespace Dfci

/-- The six mailbox variables of `DfciManager`. -/
inductive MailBox where
  | identity
  | identity2
  | permissions
  | permissions2
  | settings
  | settings2
  deriving DecidableEq, Repr

/-- The variables whose writes the managers check. -/
inductive VariableName where
  /-- `_SPP` -/
  | permissionStore
  /-- `_IPCVN` -/
  | certificateStore
  /-- `_SMID` -/
  | settingsVersions
  deriving DecidableEq, Repr

/-- A UEFI variable with its attributes. -/
structure Variable where
  attributes : Nat
  data : List Byte
  deriving DecidableEq

/-- `DFCI_INTERNAL_VAR_ATTRIBUTES`: non volatile and boot service access -/
def internalVarAttributes : Nat := 3

/-- A `CHAR16` string the user typed. -/
abbrev Password := List (BitVec 16)

/-- How a dialog of `DfciUiSupportLib` ended, with the password buffer it may return. -/
inductive DialogAnswer where
  | error
  | ok (password : Option Password)
  | cancel
  | other
  deriving DecidableEq, Repr

/-- `DFCI_SETTING_FLAGS` -/
abbrev SettingFlags := BitVec 64

/-- Libraries, protocols, PCDs and services supplied by the platform and by EDK2. -/
structure Platform where
  /-- The status of `gRT->GetTime`, and what the time record holds after the call. -/
  getTimeStatus : EfiStatus := .success
  getTime : EfiTime := .zero
  /-- The status of a `gRT->SetVariable` that writes the given data. -/
  setVariable : VariableName → List Byte → EfiStatus := fun _ _ => .success
  /-- The status of a `gRT->SetVariable` that deletes a variable, or that writes a status code to the result
  variable of a mailbox. -/
  deleteVariable : VariableName → EfiStatus := fun _ => .success
  setResultVariable : MailBox → EfiStatus → EfiStatus := fun _ _ => .success
  /-- The status of a `gRT->SetVariable` that deletes a mailbox variable that is there. -/
  deleteMailbox : MailBox → EfiStatus := fun _ => .success
  createXmlTree : List Byte → Except EfiStatus XmlNode := fun _ => .error .invalidParameter
  /-- `DfciV1TranslateString` and `DfciV1TranslateEnum` -/
  v1TranslateString : SettingId → Option SettingId := fun _ => none
  v1TranslateEnum : Nat → Option SettingId := fun _ => none
  /-- The section of `PcdUnsignedPermissionsFile`, and `PcdUnsignedListFormatAllow`. -/
  unsignedPermissionsFile : Except EfiStatus (List Byte) := .error .notFound
  unsignedListFormatAllow : Bool := true
  /-- The size of the result document `XmlTreeToString` makes of the ids and their results. -/
  resultXmlSize : List (SettingId × EfiStatus) → Except EfiStatus Nat := fun _ => .ok 0
  settingsResultXmlSize : List (SettingId × EfiStatus × SettingFlags) → Except EfiStatus Nat := fun _ => .ok 0
  /-- `SetSettingValue` and `SetDefaultValue` of a provider, by its id: the status, the flags and the value it then
  has, given the flags, the new value and the current one. -/
  setSettingValue : SettingId → SettingFlags → List Byte → List Byte → EfiStatus × SettingFlags × List Byte :=
    fun _ flags new _ => (.success, flags, new)
  setDefaultValue : SettingId → List Byte → EfiStatus × List Byte := fun _ current => (.success, current)
  settingChangedNotification : SettingId → List Byte → SettingFlags → EfiStatus := fun _ _ _ => .success
  base64Decode : List Byte → Except EfiStatus (List Byte) := .ok
  asciiStrHexToBytes : List Byte → Except EfiStatus (List Byte) := .ok
  /-- The answer of `GetRNG` to its calls, numbered from the start of the machine's life. -/
  getRng : Nat → Except EfiStatus Nat := fun call => .ok (call + 1)
  passwordStoreIsPasswordSet : Bool := false
  passwordStoreAuthenticatePassword : Password → Bool := fun _ => false
  /-- `Pkcs7Verify` on the PKCS#7 data, the trusted certificate and the signed data. -/
  pkcs7Verify : List Byte → List Byte → List Byte → Bool := fun _ _ _ => false
  /-- `DfciIdSupportGetManufacturer`, `DfciIdSupportGetProductName` and `DfciIdSupportGetSerialNumber` -/
  manufacturer : Except EfiStatus (List Byte) := .error .unsupported
  productName : Except EfiStatus (List Byte) := .error .unsupported
  serialNumber : Except EfiStatus (List Byte) := .error .unsupported

/-- `DfciUiSupportLib` and the user before it. The user's answers are given by attempt: to the enroll dialog for a
certificate, with and without a password field, and to the password dialog and the message box of an unenroll. -/
structure UserInterface where
  /-- `DfciUiIsUiAvailable` -/
  available : Bool := true
  authDialog : List Byte → Bool → Nat → DialogAnswer := fun _ _ _ => .cancel
  passwordDialog : Nat → DialogAnswer := fun _ => .cancel
  unenrollMessageBox : DialogAnswer := .cancel

end Dfci
