import Dfci.Permission.Schema
import Mathlib.Data.List.TakeWhile

/-! # The published permissions

The permission manager publishes what its store holds in a document, for the operating system to read. The document is a
tree here: printing it and parsing it again is the work of a library that is not part of this repository. -/

namespace Dfci

open PermissionXml

/-! ## Numbers in a document -/

namespace AsciiString

def digit (value : Nat) : Byte :=
  BitVec.ofNat 8 (0x30 + value)

/-- The digits of a number, if it has at most `count`. -/
def digits : Nat → Nat → List Byte
  | 0, _ => []
  | count + 1, value => if value < 10 then [digit value] else digits count (value / 10) ++ [digit (value % 10)]

section

variable {value : Nat}

theorem toNat_digit (small : value < 10) : (digit value).toNat = 0x30 + value := by
  have fits : 0x30 + value < 2 ^ 8 := by omega
  exact Nat.mod_eq_of_lt fits

theorem isDigit_digit (small : value < 10) : isDigit (digit value) = true := by
  have toNat := toNat_digit small
  simp only [isDigit, Bool.and_eq_true, decide_eq_true_eq, BitVec.le_def, toNat]
  constructor
  · simp
  · simp
    omega

theorem isDigit_digits {count : Nat} : ∀ char ∈ digits count value, isDigit char = true := by
  induction count generalizing value with
  | zero => exact List.forall_mem_nil _
  | succ count ih =>
    rw [digits]
    split
    · rename_i small
      rw [List.forall_mem_singleton]
      exact isDigit_digit small
    · rw [List.forall_mem_append, List.forall_mem_singleton]
      exact ⟨ih, isDigit_digit (Nat.mod_lt _ (by decide))⟩

theorem decimalStep_digit {before : Nat} (small : value < 10) (fits : before * 10 + value ≤ maxUintn) :
    decimalStep before (digit value) = before * 10 + value := by
  rw [decimalStep, toNat_digit small, Nat.add_sub_cancel_left]
  exact Nat.min_eq_left fits

theorem foldl_digits {count : Nat} (enough : value < 10 ^ count) (fits : value ≤ maxUintn) :
    (digits count value).foldl decimalStep 0 = value := by
  induction count generalizing value with
  | zero =>
    rw [Nat.pow_zero] at enough
    rw [digits, List.foldl_nil]
    omega
  | succ count ih =>
    rw [digits]
    split
    · rename_i small
      rw [List.foldl_cons, List.foldl_nil, decimalStep_digit small (by omega)]
      omega
    · have before : value / 10 < 10 ^ count := by
        rw [Nat.div_lt_iff_lt_mul (by decide), ← Nat.pow_succ]
        exact enough
      have split : value / 10 * 10 + value % 10 = value := Nat.div_add_mod' value 10
      rw [List.foldl_append, ih before (by omega), List.foldl_cons, List.foldl_nil,
        decimalStep_digit (Nat.mod_lt _ (by decide)) (by rw [split]; exact fits), split]

end

/-- `AsciiValueToStringS` with no flags. -/
def ofDecimal (value : Nat) : AsciiString where
  chars := digits 20 value
  noNul := fun null => absurd (isDigit_digits 0 null) (by decide)

theorem decimalToUintn_ofDecimal {value : Nat} (fits : value ≤ maxUintn) : (ofDecimal value).decimalToUintn = value := by
  have noBlank : (digits 20 value).dropWhile (fun char => char = 0x20 || char = 0x09) = digits 20 value := by
    rw [List.dropWhile_eq_self_iff]
    intro some blank
    have isDigit := isDigit_digits _ (List.getElem_mem some)
    have differs : ∀ char : Byte, AsciiString.isDigit char = true →
        ¬ (decide (char = 0x20) || decide (char = 0x09)) = true := by
      decide
    exact differs _ isDigit blank
  have allDigits : (digits 20 value).takeWhile isDigit = digits 20 value := by
    rw [List.takeWhile_eq_self_iff]
    exact isDigit_digits
  rw [decimalToUintn, ofDecimal, noBlank, allDigits]
  refine foldl_digits ?_ fits
  rw [maxUintn] at fits
  omega

end AsciiString

/-! ## The document -/

structure CurrentPermissions where
  lsv : Nat
  defaultPMask : Mask
  defaultDMask : Mask
  permissions : List (SettingId × Mask × Mask)
  deriving DecidableEq

namespace CurrentPermissions

def packetName : AsciiString := .ofString "CurrentPermissionsPacket"
def dateName : AsciiString := .ofString "Date"
def lsvName : AsciiString := .ofString "LSV"
def permissionName : AsciiString := .ofString "PermissionCurrent"

/-- `SetCurrentPermissions`. A mask of nobody is not written as the `DMask`. -/
def setCurrentPermissions (permission : SettingId × Mask × Mask) : XmlNode :=
  .node false permissionName (.ofString "") []
    (.leaf idElementName permission.1 :: .leaf maskElementName (.ofDecimal permission.2.1.toNat) ::
      if permission.2.2 ≠ 0 then [.leaf delegatedMaskElementName (.ofDecimal permission.2.2.toNat)] else [])

def toXml (document : CurrentPermissions) (date : AsciiString) : XmlNode :=
  .node true packetName (.ofString "")
    [(.ofString "xmlns", .ofString "urn:UefiSettings-Schema"),
      (defaultAttributeName, .ofDecimal document.defaultPMask.toNat),
      (delegatedAttributeName, .ofDecimal document.defaultDMask.toNat)]
    [.leaf dateName date,
      .node false listElementName (.ofString "") [] (document.permissions.map setCurrentPermissions),
      .leaf lsvName (.ofDecimal document.lsv)]

/-! A reader of the document takes the first of everything, and takes a missing `DMask` for nobody. -/

def readMask (text : AsciiString) : Mask :=
  BitVec.ofNat 8 text.decimalToUintn

def readPermission (node : XmlNode) : Option (SettingId × Mask × Mask) := do
  let id ← node.findFirstChildNodeByName idElementName
  let pMask ← node.findFirstChildNodeByName maskElementName
  let dMask := (node.findFirstChildNodeByName delegatedMaskElementName).elim 0 fun dNode => readMask dNode.value
  return (id.value, readMask pMask.value, dMask)

def ofXml (tree : XmlNode) : Option CurrentPermissions := do
  let pMask ← tree.findFirstAttributeByName defaultAttributeName
  let dMask ← tree.findFirstAttributeByName delegatedAttributeName
  let list ← tree.findFirstChildNodeByName listElementName
  let lsv ← tree.findFirstChildNodeByName lsvName
  let perms ← list.children.mapM readPermission
  return ⟨lsv.value.decimalToUintn, readMask pMask, readMask dMask, perms⟩

theorem readMask_ofDecimal (mask : Mask) : readMask (.ofDecimal mask.toNat) = mask := by
  have small := mask.isLt
  rw [readMask, AsciiString.decimalToUintn_ofDecimal (by rw [AsciiString.maxUintn]; omega), BitVec.ofNat_toNat,
    BitVec.setWidth_eq]

theorem readPermission_setCurrentPermissions (permission : SettingId × Mask × Mask) :
    readPermission (setCurrentPermissions permission) = some permission := by
  obtain ⟨id, pMask, dMask⟩ := permission
  have notId : idElementName ≠ maskElementName := by decide
  have notDelegated : idElementName ≠ delegatedMaskElementName := by decide
  have notMask : maskElementName ≠ delegatedMaskElementName := by decide
  rw [setCurrentPermissions]
  split
  · simp [readPermission, XmlNode.findFirstChildNodeByName, XmlNode.children, XmlNode.leaf, XmlNode.name, XmlNode.value,
      notId, notDelegated, notMask, readMask_ofDecimal]
  · rename_i nobody
    simp [readPermission, XmlNode.findFirstChildNodeByName, XmlNode.children, XmlNode.leaf, XmlNode.name, XmlNode.value,
      notId, notDelegated, notMask, readMask_ofDecimal, (not_not.mp nobody).symm]

theorem mapM_readPermission (perms : List (SettingId × Mask × Mask)) :
    perms.mapM (readPermission ∘ setCurrentPermissions) = some perms := by
  induction perms with
  | nil => rfl
  | cons permission perms ih =>
    simp [readPermission_setCurrentPermissions, ih]

/-- A document says to its reader what it was made of. -/
theorem ofXml_toXml {document : CurrentPermissions} (fits : document.lsv ≤ AsciiString.maxUintn) (date : AsciiString) :
    ofXml (document.toXml date) = some document := by
  have schema : AsciiString.ofString "xmlns" ≠ defaultAttributeName ∧
      AsciiString.ofString "xmlns" ≠ delegatedAttributeName ∧ defaultAttributeName ≠ delegatedAttributeName := by decide
  have names : dateName ≠ listElementName ∧ dateName ≠ lsvName ∧ listElementName ≠ lsvName := by decide
  simp [ofXml, toXml, XmlNode.findFirstAttributeByName, XmlNode.findFirstChildNodeByName, XmlNode.attributes,
    XmlNode.children, XmlNode.leaf, XmlNode.name, XmlNode.value, schema, names, mapM_readPermission, readMask_ofDecimal,
    AsciiString.decimalToUintn_ofDecimal fits]

end CurrentPermissions

/-! ## Publishing it -/

/-- What the document of a store says. `Lsv` is a local of the function that makes it, and is never set. -/
def PermissionStore.current (store : PermissionStore) : CurrentPermissions where
  lsv := 0
  defaultPMask := store.defaultPMask
  defaultDMask := store.defaultDMask
  permissions := store.rights

def PermissionStore.inForce (store : PermissionStore) : CurrentPermissions where
  lsv := store.lsv
  defaultPMask := store.defaultPMask
  defaultDMask := store.defaultDMask
  permissions := store.rights

/-- The `DfciPermissionCurrent` variable. -/
structure PublishedPermissions where
  attributes : Nat
  tree : XmlNode

/-- `DFCI_PERMISSION_POLICY_APPLY_VAR_ATTRIBUTES` -/
def permissionVarAttributes : Nat := 7

/-- What the manager calls to publish: `AsciiSPrint` of the date, and `gRT->SetVariable` with a document. -/
structure PermissionPublisher where
  dateText : EfiTime → AsciiString
  setVariable : XmlNode → EfiStatus

/-- `CreateXmlStringFromCurrentPermissions` -/
def createXmlStringFromCurrentPermissions (p : Platform) (publisher : PermissionPublisher)
    (store : Option PermissionStore) : Except EfiStatus XmlNode :=
  if p.getTimeStatus.isError then
    .error p.getTimeStatus
  else
    match store with
    | none => .error .notFound
    | some store => .ok (store.current.toXml (publisher.dateText p.getTime))

def inPlace (published : Option PublishedPermissions) : Bool :=
  published.any fun var => var.attributes = permissionVarAttributes

/-- `PopulateCurrentPermissions`. The variable is asked for with no buffer, which never succeeds, so that one with other
attributes is not deleted. -/
def populateCurrentPermissions (p : Platform) (publisher : PermissionPublisher) (force : Bool)
    (store : Option PermissionStore) (published : Option PublishedPermissions) :
    EfiStatus × Option PublishedPermissions :=
  if inPlace published && !force then
    (.success, published)
  else
    match createXmlStringFromCurrentPermissions p publisher store with
    | .error status => (status, published)
    | .ok tree =>
      match publisher.setVariable tree with
      | .error code => (.error code, published)
      | .success => (.success, some ⟨permissionVarAttributes, tree⟩)

def Announces (published : Option PublishedPermissions) (document : CurrentPermissions) : Prop :=
  ∃ var, published = some var ∧ var.attributes = permissionVarAttributes ∧ CurrentPermissions.ofXml var.tree = some document

theorem Announces.inPlace {published : Option PublishedPermissions} {document : CurrentPermissions}
    (announces : Announces published document) : inPlace published = true := by
  obtain ⟨var, rfl, attributes, _⟩ := announces
  simp [Dfci.inPlace, attributes]

section

variable {p : Platform} {publisher : PermissionPublisher} {published : Option PublishedPermissions}

theorem populateCurrentPermissions_inPlace (store : Option PermissionStore) (there : inPlace published = true) :
    (populateCurrentPermissions p publisher false store published).2 = published := by
  rw [populateCurrentPermissions, there]
  rfl

variable (time : p.getTimeStatus = .success) (sets : ∀ tree, publisher.setVariable tree = .success)
include time sets

/-- What is published when nothing fails and there is something to do. -/
theorem populateCurrentPermissions_publishes {force : Bool} (needed : force = true ∨ inPlace published = false)
    (store : PermissionStore) :
    Announces (populateCurrentPermissions p publisher force (some store) published).2 store.current := by
  have goesOn : (inPlace published && !force) = false := by
    rcases needed with rfl | missing
    · simp
    · simp [missing]
  have creates : createXmlStringFromCurrentPermissions p publisher (some store) =
      .ok (store.current.toXml (publisher.dateText p.getTime)) := by
    simp [createXmlStringFromCurrentPermissions, time]
  rw [populateCurrentPermissions, goesOn, creates]
  simp only [sets]
  exact ⟨_, rfl, rfl, CurrentPermissions.ofXml_toXml (Nat.zero_le _) _⟩

end

theorem PermissionStore.Agrees.current {first second : PermissionStore} (agrees : first.Agrees second) :
    first.current = second.current := by
  rw [PermissionStore.current, PermissionStore.current, agrees.defaultPMask, agrees.defaultDMask, agrees.rights]

theorem PermissionStore.inForce_eq_current {store : PermissionStore} (unversioned : store.lsv = 0) :
    store.inForce = store.current := by
  rw [PermissionStore.inForce, PermissionStore.current, unversioned]

end Dfci
