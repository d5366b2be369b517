import Dfci.Permission.Access
import Dfci.Permission.Schema
import Mathlib.Data.List.Nodup
import Mathlib.Data.Option.Basic

/-! # The initial permission store and the platform's unsigned list -/

namespace Dfci

def ownerKeyId : SettingId := .ofString "Dfci.OwnerKey.Enum"
def userKeyId : SettingId := .ofString "Dfci.UserKey.Enum"
def user1KeyId : SettingId := .ofString "Dfci.User1Key.Enum"
def user2KeyId : SettingId := .ofString "Dfci.User2Key.Enum"
def ztdKeyId : SettingId := .ofString "Dfci.ZtdKey.Enum"
def ztdUnenrollId : SettingId := .ofString "Dfci.ZtdUnenroll.Enable"
def dfciRecoveryId : SettingId := .ofString "Dfci.Recovery.Enable"
def ztdRecoveryId : SettingId := .ofString "Dfci.Ztd.Recovery.Enable"

theorem storable_ownerKey : StorableId ownerKeyId := by decide
theorem storable_ztdKey : StorableId ztdKeyId := by decide
theorem storable_ztdUnenroll : StorableId ztdUnenrollId := by decide
theorem storable_ztdRecovery : StorableId ztdRecoveryId := by decide

namespace PermissionStore

open PermissionXml

/-- The loop of `ModifyUnsignedPermissionEntries` over the elements of the list. -/
def modifyUnsignedLoop (p : Platform) (addEntries : Bool) :
    List XmlNode → PermissionStore → EfiStatus × PermissionStore
  | [], store => (.success, store)
  | element :: elements, store =>
    -- the masks picked from PcdUnsignedListFormatAllow are overwritten by this call
    match getInputPermission p element with
    | .error _ => (.noMapping, store)
    | .ok input =>
      -- both calls refuse a NULL id
      if input.id.chars = [] then
        (.aborted, store)
      else
        let (status, store) :=
          if addEntries then store.addPermissionEntry input.id input.pMask input.dMask
          else store.deletePermissionEntry input.id
        if status.isError then (.aborted, store) else modifyUnsignedLoop p addEntries elements store

/-- The `<Permissions>` node of the platform's unsigned list, where there is one to read. -/
def unsignedPermissionsListNode (p : Platform) (permXml : List Byte) : Option XmlNode :=
  match p.createXmlTree permXml with
  | .error _ => none
  | .ok root => (getPermissionPacketNode root).bind getPermissionsListNodeFromPacketNode

/-- The mask that `ModifyUnsignedPermissionEntries` picks for listed settings, before it calls
`GetInputPermission` on the same variable. -/
def unsignedMask (p : Platform) : Mask :=
  if p.unsignedListFormatAllow then Mask.defaultUnsigned else Mask.default

/-- `ModifyUnsignedPermissionEntries`: the disallow format opens the default mask, whether entries are
added or removed. -/
def modifyUnsignedPermissionEntries (p : Platform) (store : PermissionStore) (addEntries : Bool) :
    EfiStatus × PermissionStore :=
  match p.unsignedPermissionsFile with
  | .error _ => (.success, store)
  | .ok permXml =>
    match unsignedPermissionsListNode p permXml with
    | none => (.noMapping, store)
    | some list =>
      modifyUnsignedLoop p addEntries list.children
        (if p.unsignedListFormatAllow then store else { store with defaultPMask := Mask.defaultUnsigned })

/-- `AddUnsignedPermissionEntries` -/
def addUnsignedPermissionEntries (p : Platform) (store : PermissionStore) : EfiStatus × PermissionStore :=
  modifyUnsignedPermissionEntries p store true

/-- `RemoveUnsignedPermissionEntries` -/
def removeUnsignedPermissionEntries (p : Platform) (store : PermissionStore) : EfiStatus × PermissionStore :=
  modifyUnsignedPermissionEntries p store false

/-- The four entries `AddRequiredPermissions` makes, as `(Id, PMask, DMask)`. -/
def requiredPermissions : List (SettingId × Mask × Mask) :=
  [(ownerKeyId, Identity.local.bit ||| Identity.signerZtd.bit, Identity.signerOwner.bit),
    (ztdKeyId, Identity.local.bit, Mask.none),
    (ztdUnenrollId, Mask.none, Mask.none),
    (ztdRecoveryId, Mask.none, Mask.none)]

/-- `AddRequiredPermissions`: the statuses of its steps are not looked at. -/
def addRequiredPermissions (p : Platform) (store : PermissionStore) : PermissionStore :=
  let required := requiredPermissions.foldl (fun store permission =>
    (store.addRequiredPermissionEntry permission.1 permission.2.1 permission.2.2).2) store
  (addUnsignedPermissionEntries p required).2

/-- The store `InitPermStore` allocates, before it adds entries. -/
def blankStore (p : Platform) : PermissionStore :=
  let createdOn := if p.getTimeStatus.isError then .zero else p.getTime
  { version := 0
    lsv := 0
    modified := true
    createdOn := createdOn
    savedOn := createdOn
    defaultPMask := Mask.default
    defaultDMask := Mask.delegatedDefault
    entries := []
    version_lt := newVersion_lt
    lsv_le := newLsv_le }

/-- `InitPermStore` -/
def initPermStore (p : Platform) : PermissionStore :=
  addRequiredPermissions p (blankStore p)

/-! ## The required entries -/

def requiredIds : List SettingId := requiredPermissions.map Prod.fst

def requiredEntries : List PermissionEntry :=
  [⟨ownerKeyId, 0x09, 0x80, false, storable_ownerKey⟩, ⟨ztdKeyId, 0x01, 0x00, false, storable_ztdKey⟩,
    ⟨ztdUnenrollId, 0x00, 0x00, false, storable_ztdUnenroll⟩, ⟨ztdRecoveryId, 0x00, 0x00, false, storable_ztdRecovery⟩]

theorem initPermStore_eq (p : Platform) : initPermStore p =
      (addUnsignedPermissionEntries p { blankStore p with entries := requiredEntries }).2 := by
  rfl

/-! ## What the list loop adds and removes -/

/-- What each call of the loop keeps, the loop keeps. -/
theorem modifyUnsignedLoop_invariant (holds : PermissionStore → Prop) {p : Platform} {addEntries : Bool}
    {elements : List XmlNode} {store : PermissionStore}
    (keeps : ∀ element ∈ elements, ∀ input, getInputPermission p element = .ok input → ∀ store, holds store →
      holds (if addEntries then store.addPermissionEntry input.id input.pMask input.dMask
        else store.deletePermissionEntry input.id).2)
    (initially : holds store) : holds (modifyUnsignedLoop p addEntries elements store).2 := by
  induction elements generalizing store with
  | nil => exact initially
  | cons element elements ih =>
    obtain ⟨first, others⟩ := List.forall_mem_cons.mp keeps
    rw [modifyUnsignedLoop]
    split
    · exact initially
    · rename_i input reads
      have kept := first input reads store initially
      generalize (if addEntries then store.addPermissionEntry input.id input.pMask input.dMask
        else store.deletePermissionEntry input.id) = result at kept ⊢
      by_cases empty : input.id.chars = []
      · simpa only [empty, if_true] using initially
      · simp only [empty, if_false]
        split
        · exact kept
        · exact ih others kept

/-- The entries that the loop appends when it adds: up to the first element it cannot read or whose id
is empty or too long, numeric ids left out. -/
def unsignedEntries (p : Platform) : List XmlNode → List PermissionEntry
  | [] => []
  | element :: elements =>
    match getInputPermission p element with
    | .error _ => []
    | .ok input =>
      if input.id.chars = [] then
        []
      else if storable : StorableId input.id then
        ⟨input.id, input.pMask, input.dMask, false, storable⟩ :: unsignedEntries p elements
      else if input.id.startsWithDigit then
        unsignedEntries p elements
      else
        []

theorem modifyUnsignedLoop_add (p : Platform) (elements : List XmlNode) (store : PermissionStore) :
    (modifyUnsignedLoop p true elements store).2 =
      { store with entries := store.entries ++ unsignedEntries p elements } := by
  induction elements generalizing store with
  | nil => simp [modifyUnsignedLoop, unsignedEntries]
  | cons element elements ih =>
    rw [modifyUnsignedLoop, unsignedEntries]
    split
    · simp
    · rename_i input reads
      by_cases empty : input.id.chars = []
      · simp [empty]
      · simp only [empty, if_false, if_true]
        by_cases storable : StorableId input.id
        · simp [addPermissionEntry_storable storable, storable, ih]
        · by_cases digit : input.id.startsWithDigit = true
          · simp [addPermissionEntry_digit digit, digit, storable, ih]
          · simp [addPermissionEntry_refused digit storable, digit, storable]

theorem id_of_mem_unsignedEntries {p : Platform} {elements : List XmlNode} {entry : PermissionEntry}
    (mem : entry ∈ unsignedEntries p elements) :
    ∃ element ∈ elements, ∃ input, getInputPermission p element = .ok input ∧ input.id.chars ≠ [] ∧
      entry.id = input.id ∧ entry.pMask = input.pMask ∧ entry.dMask = input.dMask := by
  induction elements with
  | nil => cases mem
  | cons element elements ih =>
    have later : entry ∈ unsignedEntries p elements →
        ∃ other ∈ element :: elements, ∃ input, getInputPermission p other = .ok input ∧ input.id.chars ≠ [] ∧
          entry.id = input.id ∧ entry.pMask = input.pMask ∧ entry.dMask = input.dMask := by
      intro inRest
      obtain ⟨other, inElements, found⟩ := ih inRest
      exact ⟨other, List.mem_cons_of_mem _ inElements, found⟩
    rw [unsignedEntries] at mem
    split at mem
    · cases mem
    · rename_i input reads
      split at mem
      · cases mem
      · rename_i named
        split at mem
        · rcases List.mem_cons.mp mem with rfl | inRest
          · exact ⟨element, List.mem_cons_self, input, reads, named, rfl, rfl, rfl⟩
          · exact later inRest
        · split at mem
          · exact later mem
          · cases mem

/-! ## The meaning of the unsigned list -/

/-- The platform's unsigned list can be read, and names distinct ids that are neither numeric nor
required. Nothing is asked of the masks. -/
structure NamesUnsigned (p : Platform) (elements : List XmlNode) (ids : List SettingId) : Prop where
  readable : ∃ permXml list, p.unsignedPermissionsFile = .ok permXml ∧
    unsignedPermissionsListNode p permXml = some list ∧ list.children = elements
  names : elements.map (elementId p) = ids.map some
  distinct : ids.Nodup
  notNumeric : ∀ id ∈ ids, id.startsWithDigit = false
  notRequired : ∀ id ∈ ids, id ∉ requiredIds

/-- What the list is for: with the allow format the listed settings, with the disallow format all but
the listed and the required ones, are open to unsigned packets, and the masks of listed settings are
those picked from the PCD. -/
structure OpensUnsigned (p : Platform) (ids : List SettingId) (store : PermissionStore) : Prop where
  writable : ∀ id, hasWritePermissions [] store .unsignedLocal id = true ↔
    if p.unsignedListFormatAllow then id ∈ ids else id ∉ ids ∧ id ∉ requiredIds
  masks : ∀ entry ∈ store.entries, entry.id ∈ ids → entry.pMask = unsignedMask p ∧ entry.dMask = Mask.none
  delegation : ∀ entry ∈ store.entries, entry.id ∈ ids → entry.dMask ≤ Mask.all ∧ entry.dMask ≠ Mask.notSpecified

/-- The element has texts that can be read and stored, and spells out the masks that the PCD stands for. -/
def SpellsMasks (p : Platform) (element : XmlNode) : Prop :=
  ∃ input, getInputPermission p element = .ok input ∧ input.id.chars ≠ [] ∧ validIdSize input.id = true ∧
    input.pMask = unsignedMask p ∧ input.dMask = Mask.none

section

variable {p : Platform} {elements : List XmlNode} {ids : List SettingId}

section

variable (list : NamesUnsigned p elements ids)
include list

theorem NamesUnsigned.init_eq : initPermStore p = { blankStore p with
        defaultPMask := if p.unsignedListFormatAllow then Mask.default else Mask.defaultUnsigned
        entries := requiredEntries ++ unsignedEntries p elements } := by
  obtain ⟨permXml, node, file, found, children⟩ := list.readable
  rw [initPermStore_eq, addUnsignedPermissionEntries, modifyUnsignedPermissionEntries]
  simp only [file, found, children, modifyUnsignedLoop_add]
  split <;> rfl

theorem NamesUnsigned.elementId_injective {first second : XmlNode} (inFirst : first ∈ elements)
    (inSecond : second ∈ elements) (same : elementId p first = elementId p second) : first = second := by
  have nodup : (elements.map (elementId p)).Nodup := by
    rw [list.names]
    exact list.distinct.map (Option.some_injective _)
  exact List.inj_on_of_nodup_map nodup inFirst inSecond same

theorem NamesUnsigned.mem_ids {element : XmlNode} (mem : element ∈ elements) {id : SettingId}
    (named : elementId p element = some id) : id ∈ ids := by
  have mapped : some id ∈ ids.map some := by
    rw [← list.names]
    exact List.mem_map.mpr ⟨element, mem, named⟩
  simpa using mapped

/-- The entry that decides about a listed id comes from the element that names it. -/
theorem NamesUnsigned.find?_listed {id : SettingId} (listed : id ∈ ids) :
    (initPermStore p).entries.find? (fun entry => entry.id = id) =
      (unsignedEntries p elements).find? (fun entry => entry.id = id) := by
  have unrequired : requiredEntries.find? (fun entry => entry.id = id) = none := by
    rw [List.find?_eq_none]
    intro entry mem same
    have inRequired : entry.id ∈ requiredIds := List.mem_map_of_mem (f := PermissionEntry.id) mem
    rw [show entry.id = id by simpa using same] at inRequired
    exact list.notRequired id listed inRequired
  rw [list.init_eq, List.find?_append, unrequired, Option.none_or]

end

theorem unsignedEntries_ids (spelled : ∀ element ∈ elements, SpellsMasks p element)
    (plain : ∀ element ∈ elements, ∀ id, elementId p element = some id → id.startsWithDigit = false) :
    ((unsignedEntries p elements).map PermissionEntry.id).map some = elements.map (elementId p) := by
  induction elements with
  | nil => rfl
  | cons element elements ih =>
    obtain ⟨input, reads, filled, valid, _, _⟩ := spelled element List.mem_cons_self
    have named := elementId_of_getInputPermission reads
    have storable : StorableId input.id :=
      ⟨plain element List.mem_cons_self input.id named, validIdSize_iff.mp valid⟩
    have rest := ih (fun other mem => spelled other (List.mem_cons_of_mem _ mem))
      (fun other mem => plain other (List.mem_cons_of_mem _ mem))
    simpa [unsignedEntries, reads, filled, storable, named] using rest

theorem unsignedEntries_masks (spelled : ∀ element ∈ elements, SpellsMasks p element)
    {entry : PermissionEntry} (mem : entry ∈ unsignedEntries p elements) :
    entry.pMask = unsignedMask p ∧ entry.dMask = Mask.none := by
  obtain ⟨element, inElements, input, reads, _, _, pMask, dMask⟩ := id_of_mem_unsignedEntries mem
  obtain ⟨other, otherReads, _, _, pSpelled, dSpelled⟩ := spelled element inElements
  have same : other = input := by simpa [reads] using otherReads.symm
  subst same
  exact ⟨pMask.trans pSpelled, dMask.trans dSpelled⟩

theorem map_id_requiredEntries : requiredEntries.map PermissionEntry.id = requiredIds := rfl

theorem requiredEntries_not_unsigned : ∀ entry ∈ requiredEntries, entry.pMask.has .unsignedLocal = false := by
  decide

theorem unsignedMask_has (p : Platform) : (unsignedMask p).has .unsignedLocal = p.unsignedListFormatAllow := by
  cases allow : p.unsignedListFormatAllow <;> simp [unsignedMask, allow] <;> decide

/-- With its masks spelled out, the list means what the platform documentation says. -/
theorem NamesUnsigned.opens (list : NamesUnsigned p elements ids)
    (spelled : ∀ element ∈ elements, SpellsMasks p element) :
    OpensUnsigned p ids (PermissionStore.initPermStore p) := by
  have plain : ∀ element ∈ elements, ∀ id, elementId p element = some id → id.startsWithDigit = false :=
    fun element mem id named => list.notNumeric id (list.mem_ids mem named)
  have entryIds : (unsignedEntries p elements).map PermissionEntry.id = ids := by
    have wrapped := unsignedEntries_ids spelled plain
    rw [list.names] at wrapped
    exact (List.map_injective_iff.mpr (Option.some_injective _)) wrapped
  have listedMasks : ∀ entry ∈ (initPermStore p).entries, entry.id ∈ ids →
      entry.pMask = unsignedMask p ∧ entry.dMask = Mask.none := by
    intro entry mem listed
    rw [list.init_eq] at mem
    rcases List.mem_append.mp mem with required | fromList
    · exact absurd (List.mem_map_of_mem (f := PermissionEntry.id) required) (list.notRequired _ listed)
    · exact unsignedEntries_masks spelled fromList
  refine ⟨?_, listedMasks, ?_⟩
  · intro id
    rw [hasWritePermissions_no_groups, queryPermission_eq]
    by_cases listed : id ∈ ids
    · rw [list.find?_listed listed]
      obtain ⟨entry, mem, same⟩ := List.mem_map.mp (entryIds ▸ listed)
      cases found : (unsignedEntries p elements).find? (fun entry => entry.id = id) with
      | none => simpa [same] using List.find?_eq_none.mp found entry mem
      | some first =>
        have masks := unsignedEntries_masks spelled (List.mem_of_find?_eq_some found)
        simp [masks.1, unsignedMask_has, listed]
    · rw [list.init_eq, List.find?_append]
      have unlisted : (unsignedEntries p elements).find? (fun entry => entry.id = id) = none := by
        rw [List.find?_eq_none]
        intro entry mem same
        have inIds := List.mem_map_of_mem (f := PermissionEntry.id) mem
        rw [entryIds, show entry.id = id by simpa using same] at inIds
        exact listed inIds
      rw [unlisted, Option.or_none]
      cases found : requiredEntries.find? (fun entry => entry.id = id) with
      | none =>
        have unrequired : id ∉ requiredIds := by
          intro required
          rw [← map_id_requiredEntries] at required
          obtain ⟨entry, mem, same⟩ := List.mem_map.mp required
          simpa [same] using List.find?_eq_none.mp found entry mem
        cases p.unsignedListFormatAllow <;> simp [listed, unrequired] <;> decide
      | some entry =>
        have mem := List.mem_of_find?_eq_some found
        have same : entry.id = id := by simpa using List.find?_some found
        have required : id ∈ requiredIds := same ▸ List.mem_map_of_mem (f := PermissionEntry.id) mem
        simp [requiredEntries_not_unsigned entry mem, listed, required]
  · intro entry mem listed
    rw [(listedMasks entry mem listed).2]
    decide

/-- Every listed id has an entry: the default mask is the opposite of what the list asks for. -/
theorem OpensUnsigned.exists_entry {store : PermissionStore} (opens : OpensUnsigned p ids store)
    (default : store.defaultPMask =
      if p.unsignedListFormatAllow then Mask.default else Mask.defaultUnsigned) {id : SettingId} (listed : id ∈ ids) :
    ∃ entry, store.entries.find? (fun entry => entry.id = id) = some entry := by
  have answer := opens.writable id
  rw [hasWritePermissions_no_groups, queryPermission_eq] at answer
  cases found : store.entries.find? (fun entry => entry.id = id) with
  | some entry => exact ⟨entry, rfl⟩
  | none =>
    exfalso
    rw [found, default] at answer
    revert answer
    cases p.unsignedListFormatAllow <;> simp [listed] <;> decide

/-- A list that means what it should has its masks spelled out in every element. -/
theorem NamesUnsigned.spellsMasks_of_opens (list : NamesUnsigned p elements ids)
    (opens : OpensUnsigned p ids (initPermStore p)) {element : XmlNode} (mem : element ∈ elements) :
    SpellsMasks p element := by
  obtain ⟨id, named⟩ : ∃ id, elementId p element = some id := by
    have mapped := List.mem_map_of_mem (f := elementId p) mem
    rw [list.names] at mapped
    obtain ⟨id, _, same⟩ := List.mem_map.mp mapped
    exact ⟨id, same.symm⟩
  have listed := list.mem_ids mem named
  have default : (initPermStore p).defaultPMask =
      if p.unsignedListFormatAllow then Mask.default else Mask.defaultUnsigned := by
    rw [list.init_eq]
  obtain ⟨entry, found⟩ := opens.exists_entry default listed
  have stored := List.mem_of_find?_eq_some found
  have entryId : entry.id = id := by simpa using List.find?_some found
  rw [list.find?_listed listed] at found
  obtain ⟨other, inElements, input, reads, filled, inputId, pMask, dMask⟩ :=
    id_of_mem_unsignedEntries (List.mem_of_find?_eq_some found)
  have same : other = element := by
    apply list.elementId_injective inElements mem
    rw [elementId_of_getInputPermission reads, named, ← inputId, entryId]
  obtain ⟨pPicked, dPicked⟩ := opens.masks entry stored (entryId.symm ▸ listed)
  refine ⟨input, same ▸ reads, filled, ?_, pMask.symm.trans pPicked, dMask.symm.trans dPicked⟩
  rw [← inputId]
  exact validIdSize_iff.mpr entry.storable.2

/-- The platform's unsigned list opens exactly the settings it should exactly when every element can be
stored and repeats, in its own `PMask` and `DMask`, the masks that the code picks and then overwrites. -/
theorem initPermStore_opensUnsigned_iff (list : NamesUnsigned p elements ids) :
    OpensUnsigned p ids (initPermStore p) ↔ ∀ element ∈ elements, SpellsMasks p element :=
  ⟨fun opens _ mem => list.spellsMasks_of_opens opens mem, list.opens⟩

end

def permissionElement (id pMask dMask : String) : XmlNode :=
  .node false (.ofString "Permission") (.ofString "") []
    [.leaf idElementName (.ofString id), .leaf maskElementName (.ofString pMask),
      .leaf delegatedMaskElementName (.ofString dMask)]

def unsignedListPlatform (allow : Bool) (elements : List XmlNode) : Platform where
  unsignedPermissionsFile := .ok []
  unsignedListFormatAllow := allow
  createXmlTree := fun _ => .ok (.node true packetElementName (.ofString "") []
    [.node false listElementName (.ofString "") [] elements])

def platformSetting1 : SettingId := .ofString "Device.PlatformSetting1.Enable"

theorem namesUnsigned_platformSetting1 (allow : Bool) (pMask dMask : String) :
    NamesUnsigned (unsignedListPlatform allow [permissionElement "Device.PlatformSetting1.Enable" pMask dMask])
      [permissionElement "Device.PlatformSetting1.Enable" pMask dMask] [platformSetting1] where
  readable := ⟨[], _, rfl, rfl, rfl⟩
  names := rfl
  distinct := by simp
  notNumeric := by decide
  notRequired := by decide

/-- A list that spells out the masks of the allow format. -/
theorem initPermStore_opensUnsigned_spelled :
    OpensUnsigned (unsignedListPlatform true [permissionElement "Device.PlatformSetting1.Enable" "3" "0"])
      [platformSetting1]
      (initPermStore (unsignedListPlatform true [permissionElement "Device.PlatformSetting1.Enable" "3" "0"])) := by
  refine (initPermStore_opensUnsigned_iff (namesUnsigned_platformSetting1 true "3" "0")).mpr ?_
  intro element mem
  rw [List.mem_singleton] at mem
  subst mem
  exact ⟨⟨platformSetting1, 3, 0⟩, by rfl, by decide, by decide, by decide, by decide⟩

/-- The list of the integration guide, read as a disallow list: the setting it means to close is open. -/
theorem platformSetting1_open_in_disallow_list :
    NamesUnsigned (unsignedListPlatform false [permissionElement "Device.PlatformSetting1.Enable" "243" "0"])
      [permissionElement "Device.PlatformSetting1.Enable" "243" "0"] [platformSetting1] ∧ hasWritePermissions []
      (initPermStore (unsignedListPlatform false [permissionElement "Device.PlatformSetting1.Enable" "243" "0"]))
      .unsignedLocal platformSetting1 = true ∧
    ¬ OpensUnsigned (unsignedListPlatform false [permissionElement "Device.PlatformSetting1.Enable" "243" "0"])
      [platformSetting1]
      (initPermStore (unsignedListPlatform false [permissionElement "Device.PlatformSetting1.Enable" "243" "0"])) := by
  have isOpen : hasWritePermissions []
      (initPermStore (unsignedListPlatform false [permissionElement "Device.PlatformSetting1.Enable" "243" "0"]))
      .unsignedLocal platformSetting1 = true := by
    decide +kernel
  refine ⟨namesUnsigned_platformSetting1 false "243" "0", isOpen, fun opens => ?_⟩
  have closed := (opens.writable platformSetting1).mp isOpen
  simp [unsignedListPlatform] at closed

end PermissionStore

end Dfci
