import Dfci.Permission.Apply
import Dfci.Permission.Flash
import Dfci.Permission.Unsigned

/-! # What a permission packet may change on behalf of its signer -/

namespace Dfci

namespace PermissionStore

open PermissionXml MarkSweep

theorem ElementsEffect.trans {identity : Identity} {firstNames secondNames : List SettingId}
    {first second third : PermissionStore} (left : ElementsEffect identity firstNames first second)
    (right : ElementsEffect identity secondNames second third) :
    ElementsEffect identity (firstNames ++ secondNames) first third := by
  obtain ⟨leftAdded, leftMarks, leftNew⟩ := left.marks
  obtain ⟨rightAdded, rightMarks, rightNew⟩ := right.marks
  have secondIds : second.ids = first.ids ++ leftAdded := by
    rw [← marks_keys, leftMarks, List.map_append, unmarkAll_keys, marks_keys]
    simp [Function.comp_def]
  refine ⟨?_, ⟨leftAdded ++ rightAdded, ?_, ?_⟩, ?_, right.delegated⟩
  · exact ⟨right.header.version.trans left.header.version, right.header.lsv.trans left.header.lsv,
      right.header.defaultPMask.trans left.header.defaultPMask,
      right.header.defaultDMask.trans left.header.defaultDMask⟩
  · rw [rightMarks, leftMarks, unmarkAll_append]
    simp [unmarkAll, List.foldl_append]
  · intro id mem
    rcases List.mem_append.mp mem with old | new
    · obtain ⟨absent, named, allowed⟩ := leftNew id old
      exact ⟨absent, List.mem_append_left _ named, allowed⟩
    · obtain ⟨absent, named, allowed⟩ := rightNew id new
      rw [secondIds, List.mem_append, not_or] at absent
      rw [left.header.defaultDMask] at allowed
      exact ⟨absent.1, List.mem_append_right _ named, allowed⟩
  · intro entry mem undelegated
    exact right.kept entry (left.kept entry mem undelegated) undelegated

theorem applyElements_effect {p : Platform} {identity : Identity} {elements : List XmlNode}
    {before after : PermissionStore} {results : List (SettingId × EfiStatus)}
    (delegated : MarksDelegated identity before)
    (applies : applyElements p identity elements before = .ok (after, results)) :
    ElementsEffect identity (elements.filterMap (elementId p)) before after := by
  induction elements generalizing before results with
  | nil =>
    cases applies
    exact ⟨⟨rfl, rfl, rfl, rfl⟩, ⟨[], by simp, by simp⟩, fun _ mem _ => mem, delegated⟩
  | cons element elements ih =>
    rw [applyElements] at applies
    split at applies
    · contradiction
    · rename_i input reads
      obtain ⟨⟨status, middle⟩, stepApplies, rest⟩ := Fallible.bind_eq_ok.mp applies
      obtain ⟨⟨last, others⟩, loopApplies, result⟩ := Fallible.bind_eq_ok.mp rest
      cases result
      have step := applyElement_effect delegated stepApplies
      have loop := ih step.delegated loopApplies
      rw [List.filterMap_cons, elementId_of_getInputPermission reads]
      exact step.trans loop

/-- The stages of a packet that was applied. -/
theorem applyPermissions_eq_ok {p : Platform} {v1Mode : Bool} {identity : Identity} {xml : List Byte}
    {store : PermissionStore} {applied : AppliedPermissions}
    (applies : applyPermissions p v1Mode identity xml store = .ok applied) :
    ∃ packet versions list append defaulted final results, readPacketNode p xml = .ok packet ∧
      store.readVersions packet = .ok versions ∧ readListNode v1Mode packet = .ok (list, append) ∧
      ((store.markForReplacement identity append).setVersions versions).applyDefaults identity list = .ok defaulted ∧
      applyElements p identity list.children defaulted = .ok (final, results) ∧
      checkResultXml p results = .ok applied.resultXmlSize ∧ applied.store = final.deleteMarkedPermissionEntries := by
  obtain ⟨packet, readsPacket, rest⟩ := Fallible.bind_eq_ok.mp applies
  obtain ⟨versions, readsVersions, rest⟩ := Fallible.bind_eq_ok.mp rest
  obtain ⟨⟨list, append⟩, readsList, rest⟩ := Fallible.bind_eq_ok.mp rest
  obtain ⟨defaulted, defaults, rest⟩ := Fallible.bind_eq_ok.mp rest
  obtain ⟨⟨final, results⟩, elements, rest⟩ := Fallible.bind_eq_ok.mp rest
  obtain ⟨size, sized, result⟩ := Fallible.bind_eq_ok.mp rest
  cases result
  exact ⟨packet, versions, list, append, defaulted, final, results, readsPacket, readsVersions, readsList, defaults,
    elements, sized, rfl⟩

/-! ## The authority frame -/

/-- The entries a packet is meant to drop: those whose highest delegated user is the signer, when the packet
replaces its signer's entries and does not name them. -/
def forgotten (identity : Identity) (append : Bool) (names : List SettingId) (entry : PermissionEntry) : Bool :=
  !append && entry.dMask.highestUserIs identity && !decide (entry.id ∈ names)

/-- What a packet that names `names` may change on behalf of its signer. -/
structure AuthorityFrame (identity : Identity) (append : Bool) (names : List SettingId)
    (before after : PermissionStore) : Prop where
  /-- Entries that are not delegated to the signer keep their masks. -/
  undelegated : ∀ entry ∈ before.entries, entry.dMask.has identity = false →
    (entry.id, entry.pMask, entry.dMask) ∈ after.rights
  /-- The entries left of the old list are all but the forgotten ones. -/
  missing : ∃ added, after.ids = (before.entries.filter fun entry => !forgotten identity append names entry).map
      PermissionEntry.id ++ added ∧ ∀ id ∈ added, id ∉ before.ids
  /-- New ids were named, by a signer in the default delegation mask. -/
  added : ∀ id ∈ after.ids, id ∉ before.ids → id ∈ names ∧ after.defaultDMask.has identity = true
  /-- Only a signer in the old default delegation mask changes the defaults. -/
  defaults : after.defaultPMask ≠ before.defaultPMask ∨ after.defaultDMask ≠ before.defaultDMask →
    before.defaultDMask.has identity = true

theorem ids_deleteMarked (store : PermissionStore) : store.deleteMarkedPermissionEntries.ids = sweep store.marks := by
  simp [deleteMarkedPermissionEntries, ids, marks, sweep, List.filter_map, Function.comp_def]

section

variable {store defaulted : PermissionStore} {identity : Identity} {list : XmlNode}
  (applies : store.applyDefaults identity list = .ok defaulted)
include applies

theorem applyDefaults_entries : defaulted.entries = store.entries := by
  obtain rfl | ⟨_, _, _, _, rfl⟩ := applyDefaults_cases applies
  all_goals rfl

theorem applyDefaults_defaults
    (changed : defaulted.defaultPMask ≠ store.defaultPMask ∨ defaulted.defaultDMask ≠ store.defaultDMask) :
    store.defaultDMask.has identity = true := by
  obtain rfl | ⟨_, _, _, allowed, _⟩ := applyDefaults_cases applies
  · simp at changed
  · exact allowed

end

section

variable (store : PermissionStore) (identity : Identity) (append : Bool)

@[simp] theorem markForReplacement_defaultPMask :
    (store.markForReplacement identity append).defaultPMask = store.defaultPMask := by
  cases append <;> rfl

@[simp] theorem markForReplacement_defaultDMask :
    (store.markForReplacement identity append).defaultDMask = store.defaultDMask := by
  cases append <;> rfl

variable {store}

/-- The marks a packet starts its element loop with. -/
theorem markForReplacement_marks (unmarked : store.Unmarked) : (store.markForReplacement identity append).marks =
      store.entries.map fun entry => (entry.id, !append && entry.dMask.highestUserIs identity) := by
  cases append with
  | true =>
    apply List.map_congr_left
    intro entry mem
    simp [unmarked entry mem]
  | false =>
    simp only [markForReplacement, Bool.false_eq_true, if_false, marks, markPermissionEntriesForDeletion, List.map_map]
    apply List.map_congr_left
    intro entry mem
    by_cases highest : entry.dMask.highestUserIs identity = true
    · simp [highest]
    · simp [highest, unmarked entry mem]

theorem markForReplacement_delegated (unmarked : store.Unmarked) :
    MarksDelegated identity (store.markForReplacement identity append) := by
  intro entry mem marked
  cases append with
  | true =>
    rw [unmarked entry mem] at marked
    contradiction
  | false =>
    obtain ⟨original, inStore, same⟩ := List.mem_map.mp mem
    by_cases highest : original.dMask.highestUserIs identity = true
    · rw [if_pos highest] at same
      rw [← same]
      exact Mask.has_of_highestUserIs highest
    · rw [if_neg highest] at same
      rw [← same, unmarked original inStore] at marked
      contradiction

/-- An entry that is not delegated to the signer is not touched by the marking. -/
theorem mem_markForReplacement {entry : PermissionEntry} (mem : entry ∈ store.entries)
    (undelegated : entry.dMask.has identity = false) : entry ∈ (store.markForReplacement identity append).entries := by
  cases append with
  | true => exact mem
  | false =>
    have notHighest : ¬ entry.dMask.highestUserIs identity = true := by
      intro highest
      rw [Mask.has_of_highestUserIs highest] at undelegated
      contradiction
    exact List.mem_map.mpr ⟨entry, mem, if_neg notHighest⟩

end

theorem expected_eq_forgotten (identity : Identity) (append : Bool) (names : List SettingId)
    (entries : List PermissionEntry) :
    expected names (entries.map fun entry => (entry.id, !append && entry.dMask.highestUserIs identity)) =
      (entries.filter fun entry => !forgotten identity append names entry).map PermissionEntry.id := by
  simp [expected, List.filter_map, Function.comp_def, forgotten]

structure PacketEffect (identity : Identity) (append : Bool) (names : List SettingId)
    (before after : PermissionStore) : Prop where
  undelegated : ∀ entry ∈ before.entries, entry.dMask.has identity = false → entry ∈ after.entries
  ids : ∃ added, after.ids = sweep (unmarkAll names (before.entries.map fun entry =>
      (entry.id, !append && entry.dMask.highestUserIs identity))) ++ added ∧
    ∀ id ∈ added, id ∉ before.ids ∧ id ∈ names ∧ after.defaultDMask.has identity = true
  defaults : after.defaultPMask ≠ before.defaultPMask ∨ after.defaultDMask ≠ before.defaultDMask →
    before.defaultDMask.has identity = true

theorem applyPermissions_effect {p : Platform} {v1Mode : Bool} {identity : Identity} {xml : List Byte}
    {store : PermissionStore} {applied : AppliedPermissions} {packet list : XmlNode} {append : Bool}
    (unmarked : store.Unmarked) (applies : applyPermissions p v1Mode identity xml store = .ok applied)
    (isPacket : readPacketNode p xml = .ok packet) (isList : readListNode v1Mode packet = .ok (list, append)) :
    PacketEffect identity append (list.children.filterMap (elementId p)) store applied.store := by
  obtain ⟨packet', versions, list', append', defaulted, final, results, readsPacket, _, readsList, defaults, elements,
    _, result⟩ := applyPermissions_eq_ok applies
  rw [isPacket, Except.ok.injEq] at readsPacket
  subst readsPacket
  rw [isList, Except.ok.injEq, Prod.mk.injEq] at readsList
  obtain ⟨rfl, rfl⟩ := readsList
  have entries : defaulted.entries = (store.markForReplacement identity append).entries := by
    rw [applyDefaults_entries defaults]
    rfl
  have startMarks : defaulted.marks =
      store.entries.map fun entry => (entry.id, !append && entry.dMask.highestUserIs identity) := by
    rw [← markForReplacement_marks identity append unmarked, marks, marks, entries]
  have startIds : defaulted.ids = store.ids := by
    rw [← marks_keys, startMarks, List.map_map]
    rfl
  have delegated : MarksDelegated identity defaulted := by
    intro entry mem
    rw [entries] at mem
    exact markForReplacement_delegated identity append unmarked entry mem
  have effect := applyElements_effect delegated elements
  obtain ⟨added, finalMarks, new⟩ := effect.marks
  rw [result]
  refine ⟨?_, ⟨added, ?_, ?_⟩, ?_⟩
  · intro entry mem undelegated
    have stays := effect.kept entry (entries ▸ mem_markForReplacement identity append mem undelegated) undelegated
    refine List.mem_filter.mpr ⟨stays, ?_⟩
    simp [unmarked entry mem]
  · rw [ids_deleteMarked, finalMarks, sweep_append, startMarks]
  · intro id mem
    obtain ⟨absent, named, allowed⟩ := new id mem
    rw [startIds] at absent
    rw [← effect.header.defaultDMask] at allowed
    exact ⟨absent, named, allowed⟩
  · intro changed
    have sinceMarking := applyDefaults_defaults defaults
    simp only [setVersions, markForReplacement_defaultPMask, markForReplacement_defaultDMask] at sinceMarking
    apply sinceMarking
    rw [← effect.header.defaultPMask, ← effect.header.defaultDMask]
    exact changed

theorem mem_ids_of_mem_sweep {names : List SettingId} {store : PermissionStore} {mark : PermissionEntry → Bool}
    {id : SettingId} (mem : id ∈ sweep (unmarkAll names (store.entries.map fun entry => (entry.id, mark entry)))) :
    id ∈ store.ids := by
  obtain ⟨found, inMarks, same⟩ := List.mem_map.mp mem
  have inKeys : id ∈ (unmarkAll names (store.entries.map fun entry => (entry.id, mark entry))).map Prod.fst :=
    List.mem_map.mpr ⟨found, List.mem_of_mem_filter inMarks, same⟩
  rw [unmarkAll_keys, List.map_map] at inKeys
  exact inKeys

/-- A packet keeps to its signer's authority, exactly unless it replaces entries and names an id that has a
second entry, further down the list, whose highest delegated user is the signer. -/
theorem applyPermissions_authorityFrame_iff {p : Platform} {v1Mode : Bool} {identity : Identity}
    {xml : List Byte} {store : PermissionStore} {applied : AppliedPermissions} {packet list : XmlNode} {append : Bool}
    (unmarked : store.Unmarked) (applies : applyPermissions p v1Mode identity xml store = .ok applied)
    (isPacket : readPacketNode p xml = .ok packet) (isList : readListNode v1Mode packet = .ok (list, append)) :
    AuthorityFrame identity append (list.children.filterMap (elementId p)) store applied.store ↔
      append = true ∨ store.entries.Pairwise (fun first second => first.id = second.id →
        first.id ∈ list.children.filterMap (elementId p) → second.dMask.highestUserIs identity = false) := by
  have effect := applyPermissions_effect unmarked applies isPacket isList
  generalize list.children.filterMap (elementId p) = names at effect ⊢
  obtain ⟨added, afterIds, new⟩ := effect.ids
  have addedNew : ∀ id ∈ added, id ∉ store.ids := fun id mem => (new id mem).1
  -- the added ids are not among the old ones, so the old part of the list is what the sweep left
  have missingIff : (∃ added, applied.store.ids = (store.entries.filter fun entry =>
        !forgotten identity append names entry).map PermissionEntry.id ++ added ∧ ∀ id ∈ added, id ∉ store.ids) ↔
      sweep (unmarkAll names (store.entries.map fun entry =>
        (entry.id, !append && entry.dMask.highestUserIs identity))) =
      expected names (store.entries.map fun entry => (entry.id, !append && entry.dMask.highestUserIs identity)) := by
    rw [expected_eq_forgotten, afterIds]
    constructor
    · rintro ⟨others, equal, othersNew⟩
      refine (append_inj_of_disjoint equal ?_ ?_ addedNew othersNew).1
      · intro id mem
        exact mem_ids_of_mem_sweep mem
      · intro id mem
        obtain ⟨entry, inFilter, same⟩ := List.mem_map.mp mem
        exact List.mem_map.mpr ⟨entry, List.mem_of_mem_filter inFilter, same⟩
    · intro equal
      exact ⟨added, by rw [equal], addedNew⟩
  have separateIff : (store.entries.map fun entry => (entry.id, !append && entry.dMask.highestUserIs identity)).Pairwise
        (fun first second => first.1 = second.1 → first.1 ∈ names → second.2 = false) ↔
      append = true ∨ store.entries.Pairwise (fun first second => first.id = second.id →
        first.id ∈ names → second.dMask.highestUserIs identity = false) := by
    rw [List.pairwise_map]
    cases append with
    | true => simp [List.pairwise_of_forall]
    | false => simp
  rw [← separateIff, ← sweep_unmarkAll_eq_expected_iff, ← missingIff]
  constructor
  · exact AuthorityFrame.missing
  · intro missing
    refine ⟨?_, missing, ?_, effect.defaults⟩
    · intro entry mem undelegated
      exact List.mem_map.mpr ⟨entry, effect.undelegated entry mem undelegated, rfl⟩
    · intro id mem absent
      rw [afterIds] at mem
      rcases List.mem_append.mp mem with old | fresh
      · exact absurd (mem_ids_of_mem_sweep old) absent
      · exact (new id fresh).2


/-! ## A packet on a store with and without a repeated id -/

def permissionsPacket (version lsv append : String) (elements : List XmlNode) : XmlNode :=
  .node true packetElementName (.ofString "") []
    [.leaf versionElementName (.ofString version), .leaf lsvElementName (.ofString lsv),
      .node false listElementName (.ofString "") [(appendAttributeName, .ofString append)] elements]

def packetPlatform (unsigned : List XmlNode) (packet : XmlNode) : Platform where
  unsignedPermissionsFile := .ok []
  unsignedListFormatAllow := true
  createXmlTree := fun xml =>
    if xml = [] then (unsignedListPlatform true unsigned).createXmlTree xml else .ok packet

def bootedStore (p : Platform) : Option PermissionStore :=
  (loadFromFlash p (saveToFlash p none (initPermStore p)).2.2).2.1

theorem bootedStore_unmarked {p : Platform} {store : PermissionStore}
    (booted : bootedStore p = some store) : store.Unmarked :=
  loadFromFlash_unmarked booted

def keepSetting1 : XmlNode :=
  permissionsPacket "2" "1" "False" [permissionElement "Device.PlatformSetting1.Enable" "128" "128"]

def delegatedSetting1 : XmlNode := permissionElement "Device.PlatformSetting1.Enable" "3" "128"

/-- One evaluation of the boot with one element for the setting, for the store and for the packet. -/
theorem keepSetting1_applies :
    ∃ store applied, bootedStore (packetPlatform [delegatedSetting1] keepSetting1) = some store ∧
      applyPermissions (packetPlatform [delegatedSetting1] keepSetting1) false .signerOwner [0x3C] store = .ok applied ∧
      store.ids = requiredIds ++ [platformSetting1] := by
  have evaluated : ((bootedStore (packetPlatform [delegatedSetting1] keepSetting1)).map fun store =>
      (store.ids, (applyPermissions (packetPlatform [delegatedSetting1] keepSetting1) false .signerOwner [0x3C]
        store).toOption.isSome)) = some (requiredIds ++ [platformSetting1], true) := by
    decide +kernel
  obtain ⟨store, booted, answers⟩ := Option.map_eq_some_iff.mp evaluated
  obtain ⟨storeIds, appliesOk⟩ := Prod.mk.inj answers
  obtain ⟨applied, isApplied⟩ := Option.isSome_iff_exists.mp appliesOk
  exact ⟨store, applied, booted, Fallible.toOption_eq_some.mp isApplied, storeIds⟩

/-- With one element for a setting, the entry of a setting that the packet names stays. -/
theorem keepSetting1_authorityFrame :
    ∃ store applied, bootedStore (packetPlatform [delegatedSetting1] keepSetting1) = some store ∧
      applyPermissions (packetPlatform [delegatedSetting1] keepSetting1) false .signerOwner [0x3C] store = .ok applied ∧
      AuthorityFrame .signerOwner false [platformSetting1] store applied.store := by
  obtain ⟨store, applied, booted, applies, storeIds⟩ := keepSetting1_applies
  refine ⟨store, applied, booted, applies, ?_⟩
  refine (applyPermissions_authorityFrame_iff (bootedStore_unmarked booted) applies rfl rfl).mpr (.inr ?_)
  have distinct : store.ids.Nodup := by
    rw [storeIds]
    decide
  refine (List.pairwise_map.mp distinct).imp ?_
  intro first second differ same
  exact absurd same differ

/-- A list that names a setting twice makes two entries of it, and the packet that names this setting drops
the second one. -/
theorem keepSetting1_drops_repeated_entry :
    ∃ store applied, bootedStore (packetPlatform [delegatedSetting1, delegatedSetting1] keepSetting1) = some store ∧
      store.Unmarked ∧
      applyPermissions (packetPlatform [delegatedSetting1, delegatedSetting1] keepSetting1) false .signerOwner [0x3C]
        store = .ok applied ∧ ¬ AuthorityFrame .signerOwner false [platformSetting1] store applied.store := by
  -- what the frame would keep, and what the packet leaves
  have evaluated : ((bootedStore (packetPlatform [delegatedSetting1, delegatedSetting1] keepSetting1)).map fun store =>
      ((store.entries.filter fun entry => !forgotten .signerOwner false [platformSetting1] entry).map PermissionEntry.id,
        (applyPermissions (packetPlatform [delegatedSetting1, delegatedSetting1] keepSetting1) false .signerOwner [0x3C]
          store).toOption.map fun applied => applied.store.ids)) =
      some ([ztdKeyId, ztdUnenrollId, ztdRecoveryId, platformSetting1, platformSetting1],
        some [ztdKeyId, ztdUnenrollId, ztdRecoveryId, platformSetting1]) := by
    decide +kernel
  obtain ⟨store, booted, answers⟩ := Option.map_eq_some_iff.mp evaluated
  obtain ⟨kept, left⟩ := Prod.mk.inj answers
  obtain ⟨applied, isApplied, afterIds⟩ := Option.map_eq_some_iff.mp left
  refine ⟨store, applied, booted, bootedStore_unmarked booted, Fallible.toOption_eq_some.mp isApplied, ?_⟩
  intro frame
  obtain ⟨added, split, _⟩ := frame.missing
  rw [kept, afterIds] at split
  have sizes := congrArg List.length split
  simp at sizes

end PermissionStore

end Dfci
