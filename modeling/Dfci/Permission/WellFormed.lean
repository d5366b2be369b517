import Dfci.Permission.Lifecycle

/-! # Well-formed permission stores

`AddPermissionEntry` appends without a look at the entries that are there, and a packet leaves marks on
entries while it is applied. That no id has two entries and that no mark is left behind therefore rests on
the callers, on the decoder and on the reload after a failed packet. -/

namespace Dfci

namespace PermissionStore

open PermissionXml FirstMatch

structure WellFormed (store : PermissionStore) : Prop where
  unique : store.ids.Nodup
  notNumeric : ∀ entry ∈ store.entries, entry.id.startsWithDigit = false
  sized : ∀ entry ∈ store.entries, entry.idSize = entry.id.chars.length + 1 ∧ entry.idSize ≤ 97
  unmarked : store.Unmarked

/-- What an entry says of its own id comes with the entry. -/
theorem WellFormed.of_unique {store : PermissionStore} (unique : store.ids.Nodup) (unmarked : store.Unmarked) :
    store.WellFormed where
  unique := unique
  notNumeric := fun entry _ => entry.storable.1
  sized := by
    intro entry _
    have short : entry.id.chars.length < 97 := entry.storable.2
    have size := entry.idSize_eq
    exact ⟨size, by omega⟩
  unmarked := unmarked

/-! ## One entry for each id -/

section

variable {p : Platform} {store : PermissionStore}

theorem ids_modifyEntry (id : SettingId) (change : PermissionEntry → PermissionEntry)
    (keeps : ∀ entry, (change entry).id = entry.id) : (store.modifyEntry id change).ids = store.ids :=
  map_modifyFirst PermissionEntry.id keeps store.entries

/-- A caller that looked for the id first adds no second entry. -/
theorem nodup_addPermissionEntry (unique : store.ids.Nodup) {id : SettingId}
    (missing : store.findPermissionEntry id = none) (pMask dMask : Mask) :
    (store.addPermissionEntry id pMask dMask).2.ids.Nodup := by
  rcases addPermissionEntry_cases store id pMask dMask with ⟨_, added⟩ | kept
  · have absent : id ∉ store.ids := by
      intro present
      obtain ⟨entry, mem, same⟩ := List.mem_map.mp present
      exact findPermissionEntry_eq_none_iff.mp missing entry mem same
    have addedIds : (store.addPermissionEntry id pMask dMask).2.ids = store.ids ++ [id] := by
      simp [added, ids]
    rw [addedIds]
    exact List.nodup_append.mpr ⟨unique, List.nodup_singleton id, by
      intro other mem another isNew same
      rw [List.mem_singleton.mp isNew] at same
      exact absent (same ▸ mem)⟩
  · rw [kept]
    exact unique

theorem nodup_addRequired (unique : store.ids.Nodup) (id : SettingId) (pMask dMask : Mask) :
    (store.addRequiredPermissionEntry id pMask dMask).2.ids.Nodup := by
  rw [addRequiredPermissionEntry]
  split
  · rename_i missing
    exact nodup_addPermissionEntry unique missing pMask dMask
  · have sameIds : (store.modifyEntry id fun entry => { entry with pMask := pMask, dMask := dMask }).ids = store.ids :=
      ids_modifyEntry id _ fun _ => rfl
    exact sameIds.symm ▸ unique

theorem nodup_deletePermissionEntry (unique : store.ids.Nodup) (id : SettingId) :
    (store.deletePermissionEntry id).2.ids.Nodup := by
  rw [deletePermissionEntry]
  split
  · split
    · exact unique.sublist (List.eraseP_sublist.map PermissionEntry.id)
    · exact unique
  · exact unique

theorem nodup_identityChange (unique : store.ids.Nodup) (properties : Except EfiStatus Identity)
    (certIdentity : Identity) (changeType : IdentityChangeType) :
    (identityChange p properties certIdentity changeType store).2.ids.Nodup :=
  identityChange_invariant (fun store => store.ids.Nodup) (fun _ id held => nodup_deletePermissionEntry held id)
    (fun _ held => held) (fun _ id pMask dMask held => nodup_addRequired held id pMask dMask) properties certIdentity
    changeType unique

theorem nodup_applyElement {after : PermissionStore} {identity : Identity} {input : InputPermission}
    {status : EfiStatus} (applies : store.applyElement identity input = .ok (status, after))
    (unique : store.ids.Nodup) : after.ids.Nodup := by
  obtain ⟨_, _, _, _, rfl⟩ | ⟨storable, missing, _, _, rfl⟩ | ⟨_, _, _, _, rfl⟩ | ⟨_, _, rfl⟩ := applyElement_cases applies
  · rw [ids_modifyEntry input.id (updateEntry input) fun _ => rfl]
    exact unique
  · have added := nodup_addPermissionEntry unique missing input.pMask (newDMask identity input)
    rwa [addPermissionEntry_storable storable] at added
  · exact unique
  · exact unique

theorem nodup_applyElements {after : PermissionStore} {identity : Identity} {elements : List XmlNode}
    {results : List (SettingId × EfiStatus)} (unique : store.ids.Nodup)
    (applies : applyElements p identity elements store = .ok (after, results)) : after.ids.Nodup :=
  applyElements_invariant (fun store => store.ids.Nodup) (fun _ _ _ _ => nodup_applyElement) unique applies

theorem ids_markForReplacement (identity : Identity) (append : Bool) :
    (store.markForReplacement identity append).ids = store.ids := by
  cases append with
  | true => rfl
  | false =>
    simp only [markForReplacement, Bool.false_eq_true, if_false, markPermissionEntriesForDeletion, ids, List.map_map]
    refine List.map_congr_left ?_
    intro entry _
    simp only [Function.comp_apply]
    split <;> rfl

/-- The sweep at the end of a packet only takes entries away. -/
theorem nodup_applyPermissions {v1Mode : Bool} {identity : Identity} {xml : List Byte}
    {applied : AppliedPermissions} (unique : store.ids.Nodup)
    (applies : store.applyPermissions p v1Mode identity xml = .ok applied) : applied.store.ids.Nodup := by
  obtain ⟨packet, versions, list, append, defaulted, final, results, _, _, _, defaults, elements, _, result⟩ :=
    applyPermissions_eq_ok applies
  have before : defaulted.ids = store.ids := by
    rw [ids, applyDefaults_entries defaults]
    exact ids_markForReplacement identity append
  have looped : final.ids.Nodup := nodup_applyElements (before ▸ unique) elements
  rw [result]
  exact looped.sublist (List.filter_sublist.map PermissionEntry.id)

end

/-! ## The initial store -/

/-- The platform's unsigned list, where there is one, names distinct ids that are not required ones. -/
def DistinctUnsigned (p : Platform) : Prop :=
  ∀ permXml list, p.unsignedPermissionsFile = .ok permXml →
    unsignedPermissionsListNode p permXml = some list →
      (list.children.filterMap (elementId p)).Nodup ∧
        ∀ id ∈ list.children.filterMap (elementId p), id ∉ requiredIds

theorem NamesUnsigned.distinctUnsigned {p : Platform} {elements : List XmlNode} {ids : List SettingId}
    (list : NamesUnsigned p elements ids) : DistinctUnsigned p := by
  intro permXml node file found
  obtain ⟨otherXml, other, otherFile, otherFound, children⟩ := list.readable
  have sameXml : otherXml = permXml := by simpa [file] using otherFile.symm
  subst sameXml
  have sameNode : other = node := by simpa [found] using otherFound.symm
  have named : node.children.filterMap (elementId p) = ids := by
    have mapped : (elements.map (elementId p)).filterMap id = ids := by
      rw [list.names]
      simp
    simpa [sameNode.symm, children, List.filterMap_map] using mapped
  rw [named]
  exact ⟨list.distinct, list.notRequired⟩

/-- The entries made from a list name its ids in the list's order. -/
theorem unsignedEntries_ids_sublist (p : Platform) (elements : List XmlNode) :
    ((unsignedEntries p elements).map PermissionEntry.id).Sublist (elements.filterMap (elementId p)) := by
  induction elements with
  | nil => exact .slnil
  | cons element elements ih =>
    rw [unsignedEntries]
    split
    · exact List.nil_sublist _
    · rename_i input reads
      rw [List.filterMap_cons, elementId_of_getInputPermission reads]
      split
      · exact List.nil_sublist _
      · split
        · exact ih.cons_cons input.id
        · split
          · exact ih.cons input.id
          · exact List.nil_sublist _

theorem nodup_requiredIds : requiredIds.Nodup := by decide

theorem nodup_initPermStore {p : Platform} (distinct : DistinctUnsigned p) : (initPermStore p).ids.Nodup := by
  rw [initPermStore_eq, addUnsignedPermissionEntries, modifyUnsignedPermissionEntries]
  split
  · exact nodup_requiredIds
  · rename_i permXml file
    split
    · exact nodup_requiredIds
    · rename_i list found
      obtain ⟨listed, unrequired⟩ := distinct permXml list file found
      have fromList := unsignedEntries_ids_sublist p list.children
      have together : (requiredIds ++ (unsignedEntries p list.children).map PermissionEntry.id).Nodup := by
        refine List.nodup_append.mpr ⟨nodup_requiredIds, listed.sublist fromList, ?_⟩
        intro id required other isListed same
        exact unrequired other (fromList.subset isListed) (same ▸ required)
      rw [modifyUnsignedLoop_add, ids]
      split
      · simpa [map_id_requiredEntries] using together
      · simpa [map_id_requiredEntries] using together

/-! ## The variable -/

def HoldsUnique (flash : Option Variable) : Prop :=
  ∀ p store, readFlash p flash = .ok store → store.ids.Nodup

theorem holdsUnique_none : HoldsUnique none := by
  intro p store reads
  cases reads

/-- What a well-formed store is saved as reads back as one. -/
theorem holdsUnique_saveToFlash {flash : Option Variable} (holds : HoldsUnique flash) {store : PermissionStore}
    (unique : store.ids.Nodup) (p : Platform) : HoldsUnique (saveToFlash p flash store).2.2 := by
  rcases saveToFlash_cases p flash store with
    ⟨_, kept⟩ | ⟨_, refused⟩ | ⟨_, _, _, kept⟩ | ⟨_, fits, written⟩
  · rw [kept]
    exact holds
  · rw [refused]
    exact holds
  · rw [kept]
    exact holds
  · rw [written]
    intro reader read reads
    rw [readFlash_encode store store.createdOn p.getTime reader fits] at reads
    cases reads
    simpa [ids, readBack, Function.comp_def] using unique

theorem nodup_saveToFlash {flash : Option Variable} {store : PermissionStore} (unique : store.ids.Nodup)
    (p : Platform) : (saveToFlash p flash store).2.1.ids.Nodup := by
  rw [ids, saveToFlash_entries]
  exact unique

end PermissionStore

/-! ## Every run keeps the store well formed -/

namespace PermissionState

open PermissionStore

structure WellKept (perms : PermissionState) : Prop where
  memory : ∀ store ∈ perms.store, store.WellFormed
  flash : HoldsUnique perms.flash

section

variable {p : Platform} {perms : PermissionState}

theorem WellKept.reload (kept : perms.WellKept) : (perms.reload p).2.WellKept := by
  cases reads : readFlash p perms.flash with
  | error status =>
    have failed : (perms.reload p).2 = ⟨none, perms.flash⟩ := by
      simp [PermissionState.reload, loadFromFlash, reads]
    rw [failed]
    refine ⟨?_, kept.flash⟩
    intro store loaded
    cases loaded
  | ok read =>
    have unique := kept.flash p read reads
    have loads : loadFromFlash p perms.flash =
        (.success, some (saveToFlash p perms.flash read).2.1,
          (saveToFlash p perms.flash read).2.2) := by
      simp [loadFromFlash, reads]
    simp only [PermissionState.reload, loads]
    refine ⟨?_, holdsUnique_saveToFlash kept.flash unique p⟩
    intro store loaded
    rw [← Option.mem_some_iff.mp loaded]
    exact .of_unique (nodup_saveToFlash unique p) (loadFromFlash_unmarked (by rw [loads]))

theorem WellKept.save (kept : perms.WellKept) : (perms.save p).2.WellKept := by
  rw [PermissionState.save]
  split
  · exact kept
  · rename_i store present
    have wellFormed := kept.memory store present
    refine ⟨?_, holdsUnique_saveToFlash kept.flash wellFormed.unique p⟩
    intro saved isSaved
    have same : saved.entries = store.entries := by
      rw [← Option.mem_some_iff.mp isSaved]
      exact saveToFlash_entries p perms.flash store
    refine .of_unique (by rw [ids, same]; exact wellFormed.unique) ?_
    intro entry mem
    rw [same] at mem
    exact wellFormed.unmarked entry mem

/-- `InitPermStore` on its own: the variable is not touched. -/
def init (p : Platform) (perms : PermissionState) : PermissionState :=
  { perms with store := some (initPermStore p) }

theorem WellKept.init (kept : perms.WellKept) (distinct : DistinctUnsigned p) : (perms.init p).WellKept := by
  refine ⟨?_, kept.flash⟩
  intro store isInitial
  cases isInitial
  exact .of_unique (nodup_initPermStore distinct) (initPermStore_unmarked p)

theorem WellKept.empty {flash : Option Variable} (holds : HoldsUnique flash) : WellKept ⟨none, flash⟩ := by
  refine ⟨?_, holds⟩
  intro store present
  cases present

theorem WellKept.initAndSave {flash : Option Variable} (holds : HoldsUnique flash)
    (distinct : DistinctUnsigned p) : (PermissionState.initAndSave p flash).2.WellKept := by
  exact ((WellKept.empty holds).init distinct).save

theorem WellKept.boot {flash : Option Variable} (holds : HoldsUnique flash) (distinct : DistinctUnsigned p)
    (ownerEnrolled : Bool) : (PermissionState.boot p ownerEnrolled flash).WellKept := by
  cases ownerEnrolled with
  | false => exact WellKept.initAndSave holds distinct
  | true =>
    have reloaded : WellKept (PermissionState.reload p ⟨none, flash⟩).2 := (WellKept.empty holds).reload
    rw [PermissionState.boot, if_pos rfl]
    split
    · rename_i loaded loads
      rw [loads] at reloaded
      exact reloaded
    · rename_i code failed loads
      rw [loads] at reloaded
      exact WellKept.initAndSave reloaded.flash distinct

theorem WellKept.step (kept : perms.WellKept) (distinct : DistinctUnsigned p) (event : PermissionEvent) :
    (PermissionState.step p perms event).WellKept := by
  cases event with
  | identityChange properties certIdentity changeType =>
    obtain ⟨memory, flash⟩ := perms
    cases memory with
    | none => exact kept
    | some store =>
      have wellFormed := kept.memory store rfl
      refine ⟨?_, kept.flash⟩
      intro changed isChanged
      cases isChanged
      exact .of_unique (nodup_identityChange wellFormed.unique properties certIdentity changeType)
        (wellFormed.unmarked.identityChange properties certIdentity changeType)
  | packet certs auth data =>
    rcases step_packet p perms certs auth data with
      same | ⟨_, _, _, _, _, _, reloaded⟩ | ⟨_, store, applied, _, present, applies, replaced⟩
    · rw [same]
      exact kept
    · -- the marks of the failed packet go with the store that is replaced
      rw [reloaded]
      exact kept.reload
    · rw [replaced]
      refine ⟨?_, kept.flash⟩
      intro changed isChanged
      cases isChanged
      exact .of_unique (nodup_applyPermissions (kept.memory store present).unique applies)
        (applyPermissions_unmarked applies)
  | lkg op data =>
    rw [step_lkg]
    split
    · split
      · exact kept.save
      · exact kept.reload
    · exact kept
  | reboot => exact WellKept.boot kept.flash distinct true

end

end PermissionState

inductive StoreOperation where
  | init
  | reset
  | save
  | load
  | event (event : PermissionEvent)

namespace PermissionState

open PermissionStore

def operate (perms : PermissionState) : Platform × StoreOperation → PermissionState
  | (p, .init) => perms.init p
  | (p, .reset) => (initAndSave p perms.flash).2
  | (p, .save) => (perms.save p).2
  | (p, .load) => (perms.reload p).2
  | (p, .event event) => perms.step p event

theorem WellKept.operate {perms : PermissionState} (kept : perms.WellKept)
    (op : Platform × StoreOperation) (distinct : DistinctUnsigned op.1) : (perms.operate op).WellKept := by
  obtain ⟨p, op⟩ := op
  cases op with
  | init => exact kept.init distinct
  | reset => exact WellKept.initAndSave kept.flash distinct
  | save => exact kept.save
  | load => exact kept.reload
  | event event => exact kept.step distinct event

def blank : PermissionState := ⟨none, none⟩

theorem wellKept_blank : blank.WellKept := by
  refine ⟨?_, holdsUnique_none⟩
  intro store present
  cases present

/-- In every state that initialisations, loads, packets, identity changes, resets and saves reach, the store
is well formed. -/
theorem run_wellFormed (operations : List (Platform × StoreOperation))
    (distinct : ∀ op ∈ operations, DistinctUnsigned op.1) (store : PermissionStore)
    (held : (Runs.run operate blank operations).store = some store) : store.WellFormed := by
  have guarded : Runs.Guarded operate (fun _ op => DistinctUnsigned op.1) blank operations :=
    Runs.guarded_of_forall operate (fun op mem _ => distinct op mem) blank
  have kept : (Runs.run operate blank operations).WellKept :=
    guarded.invariant operate (fun _ op kept distinct => kept.operate op distinct) wellKept_blank
  exact kept.memory store held

def enrolledBoots : List (Platform × StoreOperation) :=
  let p := unsignedListPlatform true [permissionElement "Device.PlatformSetting1.Enable" "3" "0"]
  [(p, .reset), (p, .event (.identityChange (.ok .signerOwner) .signerOwner .firstEnroll)),
    (p, .save), (p, .event .reboot), (p, .load)]

theorem run_wellFormed_enrolledBoots :
    ∃ store, (Runs.run operate blank enrolledBoots).store = some store ∧ store.entries.length = 5 ∧
      store.WellFormed := by
  have distinct : ∀ op ∈ enrolledBoots, DistinctUnsigned op.1 := by
    intro op mem
    have p : op.1 =
        unsignedListPlatform true [permissionElement "Device.PlatformSetting1.Enable" "3" "0"] := by
      simp only [enrolledBoots, List.mem_cons, List.not_mem_nil, or_false] at mem
      obtain rfl | rfl | rfl | rfl | rfl := mem
      all_goals rfl
    rw [p]
    exact (namesUnsigned_platformSetting1 true "3" "0").distinctUnsigned
  have held : (Runs.run operate blank enrolledBoots).store.map (fun store => store.entries.length) = some 5 := by
    decide +kernel
  obtain ⟨store, present, size⟩ := Option.map_eq_some_iff.mp held
  exact ⟨store, present, size, run_wellFormed enrolledBoots distinct store present⟩

end PermissionState

end Dfci
