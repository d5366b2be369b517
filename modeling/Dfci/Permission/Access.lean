import Dfci.Permission.Store

/-! # Groups, and who may write a setting -/

namespace Dfci

/-- `DFCI_GROUP_LIST_ENTRY` -/
structure Group where
  groupId : SettingId
  members : List SettingId
  deriving DecidableEq

/-- `AsciiStrnCmp (.., DFCI_MAX_ID_LEN) == 0` -/
def sameSettingId (first second : SettingId) : Bool :=
  first.chars.take 96 = second.chars.take 96

/-- `FindGroup` -/
def findGroup (groups : List Group) (id : SettingId) : Option Group :=
  groups.find? (fun group => sameSettingId group.groupId id)

/-- The group ids that repeated calls of `FindGroupIdBySetting` return, in order. -/
def groupIdsBySetting (groups : List Group) (id : SettingId) : List SettingId :=
  (groups.filter fun group => group.members.any (sameSettingId id)).map Group.groupId

namespace PermissionStore

/-- The group loop of `HasWritePermissions`: the first group entry that denies decides, and a group
entry that allows decides unless a later one denies. -/
def groupPermission (store : PermissionStore) (identity : Identity) (memberOfGroup : Bool) :
    List SettingId → Option Bool
  | [] => if memberOfGroup then some true else none
  | groupId :: groupIds =>
    match store.findPermissionEntry groupId with
    | none => groupPermission store identity memberOfGroup groupIds
    | some entry =>
      if entry.pMask.has identity then groupPermission store identity true groupIds else some false

/-- `HasWritePermissions`, for a token that stands for the identity -/
def hasWritePermissions (groups : List Group) (store : PermissionStore) (identity : Identity)
    (settingId : SettingId) : Bool :=
  (store.groupPermission identity false (groupIdsBySetting groups settingId)).getD
    ((store.queryPermission settingId).has identity)

def GrantsNothing (store : PermissionStore) (identity : Identity) : Prop :=
  store.defaultPMask.has identity = false ∧ ∀ entry ∈ store.entries, entry.pMask.has identity = false

@[simp] theorem hasWritePermissions_no_groups (store : PermissionStore) (identity : Identity) (id : SettingId) :
    hasWritePermissions [] store identity id = (store.queryPermission id).has identity := rfl

section

variable {store : PermissionStore} {identity : Identity} (nothing : store.GrantsNothing identity)
include nothing

theorem GrantsNothing.queryPermission (id : SettingId) : (store.queryPermission id).has identity = false := by
  rw [PermissionStore.queryPermission]
  split
  · exact nothing.1
  · rename_i entry found
    exact nothing.2 entry (findPermissionEntry_eq_some found).1

theorem GrantsNothing.groupPermission (groupIds : List SettingId) :
    store.groupPermission identity false groupIds ≠ some true := by
  induction groupIds with
  | nil => simp [PermissionStore.groupPermission]
  | cons groupId groupIds ih =>
    rw [PermissionStore.groupPermission]
    split
    · exact ih
    · rename_i entry found
      simp [nothing.2 entry (findPermissionEntry_eq_some found).1]

/-- An identity that no mask grants anything writes nothing, however settings are grouped. -/
theorem GrantsNothing.hasWritePermissions (groups : List Group) (id : SettingId) :
    PermissionStore.hasWritePermissions groups store identity id = false := by
  rw [PermissionStore.hasWritePermissions]
  cases decided : store.groupPermission identity false (groupIdsBySetting groups id) with
  | none => exact nothing.queryPermission id
  | some answer =>
    cases answer with
    | false => rfl
    | true => exact absurd decided (nothing.groupPermission _)

end

end PermissionStore

end Dfci
