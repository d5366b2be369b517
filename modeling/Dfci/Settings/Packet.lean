import Dfci.Permission.Packet
import Dfci.Settings.Provider
import Dfci.Settings.Versions

/-! # Settings packets

Settings are not atomic: a setting that was set stays set when a later element of the same packet cannot be read or
has no id. The versions, on the other hand, are saved only after a packet that was applied to its end. -/

namespace Dfci

namespace SettingsXml

def packetElementName : AsciiString := .ofString "SettingsPacket"
def versionElementName : AsciiString := .ofString "Version"
def lsvElementName : AsciiString := .ofString "LowestSupportedVersion"
def listElementName : AsciiString := .ofString "Settings"
def idElementName : AsciiString := .ofString "Id"
def valueElementName : AsciiString := .ofString "Value"

/-- `GetSettingsPacketNode` -/
def getSettingsPacketNode (root : XmlNode) : Option XmlNode :=
  if root.declaration && root.name = packetElementName then some root else none

/-- `GetInputSettings` -/
def getInputSettings (element : XmlNode) : Except EfiStatus (SettingId × AsciiString) :=
  match element.findFirstChildNodeByName idElementName with
  | none => .error .notFound
  | some idNode =>
    match element.findFirstChildNodeByName valueElementName with
    | none => .error .notFound
    | some valueNode => .ok (idNode.value, valueNode.value)

end SettingsXml

structure SettingsState where
  providers : Providers
  /-- The `_SMID` variable. -/
  flash : Option Variable
  deriving DecidableEq

/-- `ValidateSettingsPacket`. A packet without a signature ends with its payload. -/
def validateSettingsPacket (data : Packet) : EfiStatus :=
  if maxAllowableDfciApplyVarSize < data.packetSize then
    .compromisedData
  else
    let endData :=
      match data.signature with
      | none => if data.signedDataLength ≠ data.packetSize then none else some data.packetSize
      | some signature =>
        if data.packetSize ≤ data.signedDataLength then none
        else if signature ≠ data.signedDataLength then none
        else some data.signedDataLength
    match endData with
    | none => .compromisedData
    | some endData => if data.payloadInside endData then .success else .compromisedData

/-- `CheckAuthAndGetToken` for the packet's own token. -/
def checkAuthAndGetToken (p : Platform) (certs : CertStore) (auth : AuthState) (data : Packet) :
    EfiStatus × AuthToken × AuthState :=
  match data.signature with
  | none => auth.authWithPW p .noPasswordUnsigned 0
  | some signature =>
    authWithSignedData p certs auth data.signedBytes (data.certificateAt signature) data.authToken

/-- `ValidateAndAuthenticateSettings` -/
def validateAndAuthenticateSettings (p : Platform) (certs : CertStore) (auth : AuthState)
    (data : Packet) : EfiStatus × AuthState × Packet :=
  match checkAuthAndGetToken p certs auth data with
  | (.error _, token, auth) =>
    (.securityViolation, auth, { data with authToken := token }.fail .dataAuthFailed .securityViolation)
  | (.success, token, auth) => (.success, auth, { data with state := .dataAuthenticated, authToken := token })

namespace SettingsState

open SettingsXml

def badXml : PacketError := ⟨.badXml, .noMapping, .refl true, .refl true⟩

/-- The packet's document, up to and including its `<SettingsPacket>` node. -/
def readPacketNode (p : Platform) (xml : List Byte) : Except PacketError XmlNode :=
  match p.createXmlTree xml with
  | .error _ => .error badXml
  | .ok root =>
    if p.getTimeStatus.isError then
      .error ⟨.dataSystemError, .aborted, .refl true, .refl true⟩
    else
      match getSettingsPacketNode root with
      | none => .error badXml
      | some packet => .ok packet

/-- The version checks of `ApplySettings`, and the new internal data. -/
def readVersions (internal : InternalData) (packet : XmlNode) : Except PacketError InternalData :=
  match packet.findFirstChildNodeByName versionElementName with
  | none => .error badXml
  | some versionNode =>
    if large : 0xFFFFFFFF < versionNode.value.decimalToUintn then
      .error badXml
    else if older : versionNode.value.decimalToUintn < internal.lsv then
      .error ⟨.versionError, .accessDenied, .refl true, .refl true⟩
    else
      match packet.findFirstChildNodeByName lsvElementName with
      | none => .error badXml
      | some lsvNode =>
        if 0xFFFFFFFF < lsvNode.value.decimalToUintn then
          .error badXml
        else if above : versionNode.value.decimalToUintn < lsvNode.value.decimalToUintn then
          .error ⟨.dataInvalid, .noMapping, .refl true, .refl true⟩
        else
          .ok { internal with
            currentVersion := versionNode.value.decimalToUintn
            lsv := max internal.lsv lsvNode.value.decimalToUintn
            modified := internal.modified || internal.currentVersion != versionNode.value.decimalToUintn ||
              internal.lsv < lsvNode.value.decimalToUintn
            version_lt := versionNode.number_lt large
            lsv_le := versionNode.lsv_le lsvNode older above }

/-- `GetSettingsListNodeFromPacketNode` -/
def readListNode (packet : XmlNode) : Except PacketError XmlNode :=
  match packet.findFirstChildNodeByName listElementName with
  | none => .error badXml
  | some list => .ok list

abbrev SettingResult := SettingId × EfiStatus × SettingFlags

structure ElementsApplied where
  providers : Providers
  resetRequired : Bool
  results : Except PacketError (List SettingResult)

/-- The element loop of `ApplySettings`. -/
def applyElements (p : Platform) (req : WriteRequest) :
    List XmlNode → Providers → Bool → List SettingResult → ElementsApplied
  | [], providers, resetRequired, results => ⟨providers, resetRequired, .ok results⟩
  | element :: elements, providers, resetRequired, results =>
    match getInputSettings element with
    | .error _ => ⟨providers, resetRequired, .error badXml⟩
    | .ok (id, value) =>
      let done := Providers.setSettingFromAscii p req providers id value 0
      if id.chars = [] then
        -- `SetOutputSettingsStatus` refuses a NULL id
        ⟨done.providers, resetRequired, .error ⟨.dataSystemError, .deviceError, .refl true, .refl true⟩⟩
      else
        applyElements p req elements done.providers
          (resetRequired || done.flags &&& SettingFlags.outRebootRequired != 0)
          (results ++ [(id, done.status, done.flags)])

def checkResultXml (p : Platform) (results : List SettingResult) : Except PacketError Nat :=
  match p.settingsResultXmlSize results with
  | .error _ => .error ⟨.dataApplied, .aborted, .refl true, .refl true⟩
  | .ok size =>
    if maxAllowableDfciResultVarSize < size then .error ⟨.dataApplied, .aborted, .refl true, .refl true⟩ else .ok size

/-- What `ApplySettings` leaves, with the new internal data and the size of the result when it succeeds. -/
structure SettingsApplied where
  providers : Providers
  resetRequired : Bool
  outcome : Except PacketError (InternalData × Nat)

/-- The part of `ApplySettings` before its loop: the new internal data and the list. -/
def readDocument (p : Platform) (internal : InternalData) (xml : List Byte) :
    Except PacketError (InternalData × XmlNode) := do
  let packet ← readPacketNode p xml
  let updated ← readVersions internal packet
  let list ← readListNode packet
  .ok (updated, list)

/-- `ApplySettings` for an authenticated packet -/
def applySettings (p : Platform) (req : WriteRequest) (internal : InternalData) (xml : List Byte)
    (providers : Providers) (resetRequired : Bool) : SettingsApplied :=
  match readDocument p internal xml with
  | .error failure => ⟨providers, resetRequired, .error failure⟩
  | .ok (updated, list) =>
    let loop := applyElements p req list.children providers resetRequired []
    ⟨loop.providers, loop.resetRequired, do
      let results ← loop.results
      let size ← checkResultXml p results
      .ok (updated, size)⟩

/-- What a settings packet leaves: the status, the managers' state, the packet's record, and the status code in the
result variable if one was written. -/
structure PacketApplied where
  status : EfiStatus
  auth : AuthState
  settings : SettingsState
  data : Packet
  result : Option EfiStatus

/-- `UpdateSettingsResult`, which saves the versions of a packet that succeeded even if the result is refused. -/
def updateSettingsResult (p : Platform) (box : MailBox) (internal : InternalData) (settings : SettingsState)
    (data : Packet) : SettingsState × Option EfiStatus :=
  if data.state = .uninitialized then
    (settings, none)
  else
    let result := if (p.setResultVariable box data.statusCode).isError then none else some data.statusCode
    if data.statusCode.isError then (settings, result)
    else ({ settings with flash := (internal.saveToFlash p settings.flash).2 }, result)

/-- The steps of `ApplyNewSettingsPacket` from the loaded internal data to `UpdateSettingsResult`. -/
def applyLoaded (p : Platform) (box : MailBox) (certs : CertStore) (store : Option PermissionStore)
    (auth : AuthState) (settings : SettingsState) (internal : InternalData) (data : Packet) : PacketApplied :=
  match validateAndAuthenticateSettings p certs auth data with
  | (.error code, auth, data) =>
    let updated := updateSettingsResult p box internal settings data
    ⟨.error code, auth, updated.1, data, updated.2⟩
  | (.success, auth, data) =>
    let applied := applySettings p ⟨store, auth.getIdentityProperties data.authToken⟩ internal data.payloadText
      settings.providers data.resetRequired
    let settings := { settings with providers := applied.providers }
    let data := { data with resetRequired := applied.resetRequired }
    match applied.outcome with
    | .error failure =>
      let data := data.fail failure.state failure.status
      let updated := updateSettingsResult p box internal settings data
      ⟨failure.status, auth, updated.1, data, updated.2⟩
    | .ok (internal, size) =>
      let data := { data with state := .dataApplied, statusCode := .success, resultXmlSize := size }
      let updated := updateSettingsResult p box internal settings data
      ⟨.success, auth, updated.1, data, updated.2⟩

def PacketApplied.cleanup (applied : PacketApplied) : PacketApplied :=
  let cleaned := cleanupToken applied.auth applied.data
  { applied with auth := cleaned.1, data := cleaned.2 }

/-- `ApplyNewSettingsPacket` -/
def applyNewSettingsPacket (p : Platform) (box : MailBox) (certs : CertStore) (store : Option PermissionStore)
    (auth : AuthState) (settings : SettingsState) (data : Packet) : PacketApplied :=
  PacketApplied.cleanup <|
    if data.state ≠ .dataPresent then
      ⟨.aborted, auth, settings, data, none⟩
    else
      match validateSettingsPacket data with
      -- the internal data is not loaded yet, so no result is written
      | .error code => ⟨.error code, auth, settings, data.fail .dataSystemError .aborted, none⟩
      | .success =>
        applyLoaded p box certs store auth settings (InternalData.loadOrInit p settings.flash) data

end SettingsState

end Dfci
