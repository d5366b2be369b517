import Dfci.Base
import Dfci.Support.FirstMatch

/-! # The permission store and the operations on its entry list -/

namespace Dfci

open FirstMatch

/-- What `AddPermissionEntry` asks of an id before it stores it. -/
def StorableId (id : SettingId) : Prop :=
  id.startsWithDigit = false ∧ id.chars.length < maxIdSize

instance (id : SettingId) : Decidable (StorableId id) :=
  inferInstanceAs (Decidable (_ ∧ _))

/-- `DFCI_PERMISSION_ENTRY`. `IdSize` is not stored: it is `idSize` below. -/
structure PermissionEntry where
  id : SettingId
  pMask : Mask
  dMask : Mask
  markedForDeletion : Bool
  storable : StorableId id
  deriving DecidableEq

/-- `DFCI_PERMISSION_STORE` -/
structure PermissionStore where
  version : Nat
  lsv : Nat
  modified : Bool
  createdOn : EfiTime
  savedOn : EfiTime
  defaultPMask : Mask
  defaultDMask : Mask
  entries : List PermissionEntry
  version_lt : version < 2 ^ 32
  lsv_le : lsv ≤ version
  deriving DecidableEq

namespace PermissionEntry

def idSize (entry : PermissionEntry) : Nat :=
  entry.id.strnSizeS maxIdSize

theorem idSize_eq (entry : PermissionEntry) : entry.idSize = entry.id.chars.length + 1 := by
  have short := entry.storable.2
  simp only [idSize, AsciiString.strnSizeS, maxIdSize] at short ⊢
  omega

end PermissionEntry

namespace PermissionStore

/-- The `(Id, PMask, DMask)` triples of a store, in list order. -/
def rights (store : PermissionStore) : List (SettingId × Mask × Mask) :=
  store.entries.map fun entry => (entry.id, entry.pMask, entry.dMask)

def ids (store : PermissionStore) : List SettingId :=
  store.entries.map PermissionEntry.id

def validIdSize (id : SettingId) : Bool :=
  id.strnSizeS maxIdSize ≤ maxIdSize

theorem validIdSize_iff {id : SettingId} : validIdSize id = true ↔ id.chars.length < maxIdSize := by
  rw [validIdSize, decide_eq_true_eq, AsciiString.strnSizeS, maxIdSize]
  omega

/-- `AddPermissionEntry`: an id that starts with a digit is dropped without an error. -/
def addPermissionEntry (store : PermissionStore) (id : SettingId) (pMask dMask : Mask) :
    EfiStatus × PermissionStore :=
  if digit : id.startsWithDigit = true then
    (.success, store)
  else if size : validIdSize id = true then
    (.success, { store with
      entries := store.entries ++
        [⟨id, pMask, dMask, false, Bool.eq_false_iff.mpr digit, validIdSize_iff.mp size⟩] })
  else
    (.invalidParameter, store)

/-- `FindPermissionEntry` -/
def findPermissionEntry (store : PermissionStore) (id : SettingId) : Option PermissionEntry :=
  if validIdSize id then store.entries.find? (fun entry => entry.id = id) else none

/-- `DeletePermissionEntry`: remove the first entry of the id. -/
def deletePermissionEntry (store : PermissionStore) (id : SettingId) : EfiStatus × PermissionStore :=
  if validIdSize id then
    if store.entries.any (fun entry => entry.id = id) then
      (.success, { store with entries := store.entries.eraseP (fun entry => entry.id = id) })
    else
      (.notFound, store)
  else
    (.invalidParameter, store)

/-- Writing through the pointer that `FindPermissionEntry` returned for the id. -/
def modifyEntry (store : PermissionStore) (id : SettingId) (change : PermissionEntry → PermissionEntry) :
    PermissionStore :=
  { store with entries := modifyFirst (fun entry => entry.id = id) change store.entries }

/-- `AddRequiredPermissionEntry` -/
def addRequiredPermissionEntry (store : PermissionStore) (id : SettingId) (pMask dMask : Mask) :
    EfiStatus × PermissionStore :=
  match store.findPermissionEntry id with
  | none => store.addPermissionEntry id pMask dMask
  | some _ => (.success, store.modifyEntry id fun entry => { entry with pMask := pMask, dMask := dMask })

/-- `MarkPermissionEntriesForDeletion` -/
def markPermissionEntriesForDeletion (store : PermissionStore) (identity : Identity) : PermissionStore :=
  { store with
    entries := store.entries.map fun entry =>
      if entry.dMask.highestUserIs identity then { entry with markedForDeletion := true } else entry }

/-- `DeleteMarkedPermissionEntries` -/
def deleteMarkedPermissionEntries (store : PermissionStore) : PermissionStore :=
  { store with entries := store.entries.filter fun entry => !entry.markedForDeletion }

/-- The mask `QueryPermission` answers for a setting. -/
def queryPermission (store : PermissionStore) (id : SettingId) : Mask :=
  match store.findPermissionEntry id with
  | none => store.defaultPMask
  | some entry => entry.pMask

/-- Two stores that grant the same rights under the same versions: everything but the time stamps
and the `Modified` flag. -/
structure Agrees (first second : PermissionStore) : Prop where
  version : first.version = second.version
  lsv : first.lsv = second.lsv
  defaultPMask : first.defaultPMask = second.defaultPMask
  defaultDMask : first.defaultDMask = second.defaultDMask
  rights : first.rights = second.rights

instance (first second : PermissionStore) : Decidable (first.Agrees second) :=
  decidable_of_iff (first.version = second.version ∧ first.lsv = second.lsv ∧
      first.defaultPMask = second.defaultPMask ∧ first.defaultDMask = second.defaultDMask ∧
      first.rights = second.rights)
    ⟨fun ⟨version, lsv, pMask, dMask, rights⟩ => ⟨version, lsv, pMask, dMask, rights⟩,
      fun ⟨version, lsv, pMask, dMask, rights⟩ => ⟨version, lsv, pMask, dMask, rights⟩⟩

namespace Agrees

theorem refl (store : PermissionStore) : Agrees store store := ⟨rfl, rfl, rfl, rfl, rfl⟩

theorem symm {first second : PermissionStore} (agrees : Agrees first second) : Agrees second first :=
  ⟨agrees.version.symm, agrees.lsv.symm, agrees.defaultPMask.symm, agrees.defaultDMask.symm, agrees.rights.symm⟩

theorem trans {first second third : PermissionStore} (left : Agrees first second) (right : Agrees second third) :
    Agrees first third :=
  ⟨left.version.trans right.version, left.lsv.trans right.lsv, left.defaultPMask.trans right.defaultPMask,
    left.defaultDMask.trans right.defaultDMask, left.rights.trans right.rights⟩

end Agrees

def Unmarked (store : PermissionStore) : Prop :=
  ∀ entry ∈ store.entries, entry.markedForDeletion = false

/-! ## The entry list under each operation -/

section

variable {store : PermissionStore} {id : SettingId} {pMask dMask : Mask}

theorem addPermissionEntry_digit (digit : id.startsWithDigit = true) :
    store.addPermissionEntry id pMask dMask = (.success, store) := by
  simp [addPermissionEntry, digit]

theorem addPermissionEntry_storable (storable : StorableId id) : store.addPermissionEntry id pMask dMask =
      (.success, { store with entries := store.entries ++ [⟨id, pMask, dMask, false, storable⟩] }) := by
  simp [addPermissionEntry, storable.1, validIdSize_iff.mpr storable.2]

theorem addPermissionEntry_refused (notDigit : ¬ id.startsWithDigit = true) (unstorable : ¬ StorableId id) :
    store.addPermissionEntry id pMask dMask = (.invalidParameter, store) := by
  have long : ¬ validIdSize id = true :=
    fun valid => unstorable ⟨Bool.eq_false_iff.mpr notDigit, validIdSize_iff.mp valid⟩
  simp [addPermissionEntry, notDigit, long]

variable (store id pMask dMask) in
/-- An entry is added at the end, or the store stays. -/
theorem addPermissionEntry_cases : (∃ storable : StorableId id, (store.addPermissionEntry id pMask dMask).2 =
      { store with entries := store.entries ++ [⟨id, pMask, dMask, false, storable⟩] }) ∨
    (store.addPermissionEntry id pMask dMask).2 = store := by
  by_cases storable : StorableId id
  · exact .inl ⟨storable, by rw [addPermissionEntry_storable storable]⟩
  · by_cases digit : id.startsWithDigit = true
    · exact .inr (by rw [addPermissionEntry_digit digit])
    · exact .inr (by rw [addPermissionEntry_refused digit storable])

@[simp] theorem addPermissionEntry_defaultPMask :
    (store.addPermissionEntry id pMask dMask).2.defaultPMask = store.defaultPMask := by
  rcases addPermissionEntry_cases store id pMask dMask with ⟨_, added⟩ | kept
  · rw [added]
  · rw [kept]

theorem mem_addPermissionEntry {entry : PermissionEntry}
    (mem : entry ∈ (store.addPermissionEntry id pMask dMask).2.entries) :
    entry ∈ store.entries ∨ entry.pMask = pMask := by
  rcases addPermissionEntry_cases store id pMask dMask with ⟨_, added⟩ | kept
  · rw [added] at mem
    rcases List.mem_append.mp mem with old | new
    · exact .inl old
    · rw [List.mem_singleton.mp new]
      exact .inr rfl
  · exact .inl (kept ▸ mem)

theorem findPermissionEntry_eq_some {entry : PermissionEntry} (found : store.findPermissionEntry id = some entry) :
    entry ∈ store.entries ∧ entry.id = id := by
  simp only [findPermissionEntry] at found
  split at found
  · exact ⟨List.mem_of_find?_eq_some found, by simpa using List.find?_some found⟩
  · contradiction

/-- An id no entry can have is found in no store. -/
theorem findPermissionEntry_eq_none_iff :
    store.findPermissionEntry id = none ↔ ∀ entry ∈ store.entries, entry.id ≠ id := by
  simp only [findPermissionEntry]
  split
  · simp
  · rename_i invalid
    refine ⟨fun _ entry _ same => invalid ?_, fun _ => rfl⟩
    exact validIdSize_iff.mpr (same ▸ entry.storable.2)

theorem findPermissionEntry_eq_find? :
    store.findPermissionEntry id = store.entries.find? (fun entry => entry.id = id) := by
  cases found : store.entries.find? (fun entry => entry.id = id) with
  | none => exact findPermissionEntry_eq_none_iff.mpr (by simpa using found)
  | some entry =>
    have valid : validIdSize id = true := by
      have same : entry.id = id := by simpa using List.find?_some found
      exact validIdSize_iff.mpr (same ▸ entry.storable.2)
    simp [findPermissionEntry, valid, found]

theorem queryPermission_eq : store.queryPermission id =
      ((store.entries.find? (fun entry => entry.id = id)).map PermissionEntry.pMask).getD store.defaultPMask := by
  rw [queryPermission, findPermissionEntry_eq_find?]
  cases store.entries.find? (fun entry => entry.id = id) <;> rfl

variable (store) {name : SettingId} (other : name ≠ id)
include other

theorem findPermissionEntry_modifyEntry_ne {change : PermissionEntry → PermissionEntry}
    (keepsId : ∀ entry, (change entry).id = entry.id) :
    (store.modifyEntry name change).findPermissionEntry id = store.findPermissionEntry id := by
  rw [findPermissionEntry_eq_find?, findPermissionEntry_eq_find?]
  apply find?_modifyFirst_of_apart
  · intro entry isName
    rw [decide_eq_true_eq] at isName
    exact decide_eq_false (isName ▸ other)
  · intro entry
    rw [keepsId]

theorem findPermissionEntry_addPermissionEntry_ne (pMask dMask : Mask) :
    (store.addPermissionEntry name pMask dMask).2.findPermissionEntry id = store.findPermissionEntry id := by
  rcases addPermissionEntry_cases store name pMask dMask with ⟨_, added⟩ | kept
  · rw [added, findPermissionEntry_eq_find?, findPermissionEntry_eq_find?, List.find?_append, List.find?_singleton]
    simp [other]
  · rw [kept]

end

end PermissionStore

end Dfci
