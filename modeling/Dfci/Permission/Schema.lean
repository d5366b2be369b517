import Dfci.Permission.Store
import Dfci.Platform
import Dfci.Support.Fallible

/-! # Reading permission XML -/

namespace Dfci

namespace PermissionXml

def packetElementName : AsciiString := .ofString "PermissionsPacket"
def versionElementName : AsciiString := .ofString "Version"
def lsvElementName : AsciiString := .ofString "LowestSupportedVersion"
def listElementName : AsciiString := .ofString "Permissions"
def defaultAttributeName : AsciiString := .ofString "Default"
def delegatedAttributeName : AsciiString := .ofString "Delegated"
def appendAttributeName : AsciiString := .ofString "Append"
def appendTrueValue : AsciiString := .ofString "True"
def idElementName : AsciiString := .ofString "Id"
def maskElementName : AsciiString := .ofString "PMask"
def delegatedMaskElementName : AsciiString := .ofString "DMask"

/-- `ConvertAsciiDecimalToPermissionMask` -/
def convertAsciiDecimalToPermissionMask : Option AsciiString → Except EfiStatus Mask
  | none => .error .invalidParameter
  | some text =>
    if Mask.all.toNat < text.decimalToUintn then
      .error .invalidParameter
    else
      .ok (BitVec.ofNat 8 text.decimalToUintn)

/-- `GetPermissionPacketNode` -/
def getPermissionPacketNode (root : XmlNode) : Option XmlNode :=
  if root.declaration && root.name = packetElementName then some root else none

/-- `GetPermissionsListNodeFromPacketNode` -/
def getPermissionsListNodeFromPacketNode (packet : XmlNode) : Option XmlNode :=
  packet.findFirstChildNodeByName listElementName

/-- `GetPermissionsListDefaultPMask`: the default mask, and the delegated one if there is one. -/
def getPermissionsListDefaultPMask (list : XmlNode) : Except EfiStatus (Mask × Option Mask) :=
  match list.findFirstAttributeByName defaultAttributeName with
  | none => .error .notFound
  | some pText => do
    let pMask ← convertAsciiDecimalToPermissionMask (some pText)
    match list.findFirstAttributeByName delegatedAttributeName with
    | none => .ok (pMask, none)
    | some dText =>
      let dMask ← convertAsciiDecimalToPermissionMask (some dText)
      .ok (pMask, some dMask)

/-- `PermissionListEntriesAppend` -/
def permissionListEntriesAppend (list : XmlNode) : Except EfiStatus Bool :=
  match list.findFirstAttributeByName appendAttributeName with
  | none => .error .notFound
  | some text => .ok (text = appendTrueValue)

/-- The id of a permission element, with a numeric id translated where the platform can. -/
def translateId (p : Platform) (text : AsciiString) : SettingId :=
  if text.startsWithDigit then (p.v1TranslateString text).getD text else text

/-- What `GetInputPermission` returns through its pointers. -/
structure InputPermission where
  /-- Empty where the element's `Id` has no text, which the source passes on as NULL. -/
  id : SettingId
  pMask : Mask
  /-- `DFCI_IDENTITY_NOT_SPECIFIED` when the element has no `DMask`. -/
  dMask : Mask
  deriving DecidableEq

/-- The value of the element's `DMask`, or the sentinel when it has none. -/
def inputDMask (element : XmlNode) : Except EfiStatus Mask :=
  match element.findFirstChildNodeByName delegatedMaskElementName with
  | none => .ok Mask.notSpecified
  | some dNode => convertAsciiDecimalToPermissionMask dNode.text

/-- `GetInputPermission` -/
def getInputPermission (p : Platform) (element : XmlNode) : Except EfiStatus InputPermission :=
  match element.findFirstChildNodeByName idElementName with
  | none => .error .notFound
  | some idNode =>
    match element.findFirstChildNodeByName maskElementName with
    | none => .error .notFound
    | some maskNode => do
      let pMask ← convertAsciiDecimalToPermissionMask maskNode.text
      let dMask ← inputDMask element
      .ok ⟨translateId p idNode.value, pMask, dMask⟩

def elementId (p : Platform) (element : XmlNode) : Option SettingId :=
  (element.findFirstChildNodeByName idElementName).map fun idNode => translateId p idNode.value

theorem elementId_of_getInputPermission {p : Platform} {element : XmlNode} {input : InputPermission}
    (reads : getInputPermission p element = .ok input) : elementId p element = some input.id := by
  simp only [getInputPermission] at reads
  split at reads
  · contradiction
  · rename_i idNode found
    split at reads
    · contradiction
    · obtain ⟨pMask, _, rest⟩ := Fallible.bind_eq_ok.mp reads
      obtain ⟨dMask, _, result⟩ := Fallible.bind_eq_ok.mp rest
      cases result
      simp [elementId, found]

end PermissionXml

end Dfci
