import Dfci.Identity.Tokens
import Dfci.Permission.Unsigned
import Dfci.Settings.Provider
import Dfci.Support.Cursor

/-! # The group walk of `HasWritePermissions`, and the rule it follows

`FindGroupIdBySetting` is called again and again, and finds its place in the group list by the address of the list entry
it returned last. -/

namespace Dfci

/-- `mGroupList` in memory, where every entry has an address of its own. -/
structure GroupList (α : Type) where
  nodes : List (α × Group)
  distinct : (nodes.map Prod.fst).Nodup

namespace GroupList

variable {α : Type} [DecidableEq α]

def groups (list : GroupList α) : List Group :=
  list.nodes.map Prod.snd

/-- `FindGroupIdBySetting`: the list entry whose `GroupId` is returned, and whose address is the key of the next call. A
first call has no key. -/
def findGroupIdBySetting (list : GroupList α) (id : SettingId) (key : Option α) : Option (α × Group) :=
  Cursor.next (fun group => group.members.any (sameSettingId id)) key key.isNone list.nodes

/-- The list entries that calls of `FindGroupIdBySetting` return until there are no more. `none` is a walk that did not
end within the given number of calls. -/
def visitGroups (list : GroupList α) (id : SettingId) : Nat → Option α → Option (List (α × Group))
  | 0, _ => none
  | fuel + 1, key =>
    match list.findGroupIdBySetting id key with
    | none => some []
    | some node => (list.visitGroups id fuel (some node.1)).map (node :: ·)

/-- The loop of `HasWritePermissions` over the groups of a setting, with `MemberOfGroup`. It has no answer for a setting
that is in no group with a permission entry. -/
def groupLoop (list : GroupList α) (store : PermissionStore) (identity : Identity) (id : SettingId) :
    Nat → Option α → Bool → Option (Option Bool)
  | 0, _, _ => none
  | fuel + 1, key, memberOfGroup =>
    match list.findGroupIdBySetting id key with
    | none => some (if memberOfGroup then some true else none)
    | some node =>
      match store.findPermissionEntry node.2.groupId with
      | none => list.groupLoop store identity id fuel (some node.1) memberOfGroup
      | some entry =>
        if entry.pMask.has identity then list.groupLoop store identity id fuel (some node.1) true
        else some (some false)

/-- `HasWritePermissions`. `none` is a call that did not return. -/
def hasWritePermissions (list : GroupList α) (fuel : Nat) (req : WriteRequest) (id : SettingId) :
    Option (Except EfiStatus Bool) :=
  match req.store with
  | none => some (.error .notReady)
  | some store =>
    match req.properties with
    | .error status => some (.error status)
    | .ok identity =>
      (list.groupLoop store identity id fuel none false).map fun decided =>
        .ok (decided.getD ((store.queryPermission id).has identity))

section

variable (list : GroupList α) (id : SettingId)

def unvisited (key : Option α) : List (α × Group) :=
  Cursor.remaining (fun group => group.members.any (sameSettingId id)) key list.nodes

theorem findGroupIdBySetting_eq (key : Option α) : list.findGroupIdBySetting id key = (list.unvisited id key).head? :=
  Cursor.next_eq_head? _ list.distinct

theorem unvisited_next {key : Option α} {node : α × Group} {rest : List (α × Group)}
    (found : list.unvisited id key = node :: rest) : list.unvisited id (some node.1) = rest :=
  Cursor.remaining_next _ list.distinct found

theorem length_unvisited_none : (list.unvisited id none).length ≤ list.nodes.length :=
  List.length_filter_le _ _

theorem groupIds_unvisited_none :
    (list.unvisited id none).map (fun node => node.2.groupId) = groupIdsBySetting list.groups id := by
  simp only [unvisited, Cursor.remaining, groupIdsBySetting, groups, List.filter_map, List.map_map]
  rfl

theorem visitGroups_eq {fuel : Nat} {key : Option α} (enough : (list.unvisited id key).length < fuel) :
    list.visitGroups id fuel key = some (list.unvisited id key) := by
  -- each call takes one entry off what is still to be visited
  generalize left : list.unvisited id key = entries at enough
  induction entries generalizing fuel key with
  | nil =>
    obtain ⟨fuel, rfl⟩ := Nat.exists_eq_succ_of_ne_zero (Nat.ne_zero_of_lt enough)
    simp [visitGroups, findGroupIdBySetting_eq, left]
  | cons node rest ih =>
    obtain ⟨fuel, rfl⟩ := Nat.exists_eq_succ_of_ne_zero (Nat.ne_zero_of_lt enough)
    have later := ih (list.unvisited_next id left) (Nat.lt_of_succ_lt_succ enough)
    simp [visitGroups, findGroupIdBySetting_eq, left, later]

theorem groupLoop_eq (store : PermissionStore) (identity : Identity) {fuel : Nat} {key : Option α}
    (memberOfGroup : Bool) (enough : (list.unvisited id key).length < fuel) :
    list.groupLoop store identity id fuel key memberOfGroup = some (store.groupPermission identity memberOfGroup
        ((list.unvisited id key).map fun node => node.2.groupId)) := by
  generalize left : list.unvisited id key = entries at enough
  induction entries generalizing fuel key memberOfGroup with
  | nil =>
    obtain ⟨fuel, rfl⟩ := Nat.exists_eq_succ_of_ne_zero (Nat.ne_zero_of_lt enough)
    simp [groupLoop, findGroupIdBySetting_eq, left, PermissionStore.groupPermission]
  | cons node rest ih =>
    obtain ⟨fuel, rfl⟩ := Nat.exists_eq_succ_of_ne_zero (Nat.ne_zero_of_lt enough)
    have later := fun memberOfGroup => ih memberOfGroup (list.unvisited_next id left) (Nat.lt_of_succ_lt_succ enough)
    simp only [groupLoop, findGroupIdBySetting_eq, left, List.head?_cons, List.map_cons,
      PermissionStore.groupPermission, later]
    cases store.findPermissionEntry node.2.groupId with
    | none => rfl
    | some entry => cases permits : entry.pMask.has identity <;> simp [permits]

/-- The walk in memory returns, with the answer that the groups in list order give. -/
theorem hasWritePermissions_eq (req : WriteRequest) {fuel : Nat} (enough : list.nodes.length < fuel) :
    list.hasWritePermissions fuel req id = some (req.hasWritePermissions list.groups id) := by
  have unvisited : (list.unvisited id none).length < fuel := Nat.lt_of_le_of_lt (list.length_unvisited_none id) enough
  rw [hasWritePermissions, WriteRequest.hasWritePermissions]
  cases req.store with
  | none => rfl
  | some store =>
    cases req.properties with
    | error status => rfl
    | ok identity =>
      simp only [list.groupLoop_eq id store identity false unvisited, groupIds_unvisited_none]
      rfl

end

end GroupList

/-! ## The rule -/

/-- The setting is one of the group's. The code compares ids up to `DFCI_MAX_ID_LEN` characters. -/
def Group.Contains (group : Group) (id : SettingId) : Prop :=
  ∃ member ∈ group.members, member.chars.take 96 = id.chars

theorem Group.contains_iff_mem {group : Group} {id : SettingId}
    (named : ∀ member ∈ group.members, member.chars.length ≤ 96) : group.Contains id ↔ id ∈ group.members := by
  constructor
  · rintro ⟨member, isMember, same⟩
    rw [List.take_of_length_le (named member isMember)] at same
    rwa [← AsciiString.ext same]
  · intro isMember
    exact ⟨id, isMember, List.take_of_length_le (named id isMember)⟩

theorem Group.contains_iff_any {group : Group} {id : SettingId} (short : id.chars.length ≤ 96) :
    group.members.any (sameSettingId id) = true ↔ group.Contains id := by
  have same : ∀ member, sameSettingId id member = true ↔ member.chars.take 96 = id.chars := by
    intro member
    rw [sameSettingId, decide_eq_true_eq, List.take_of_length_le short, eq_comm]
  simp only [List.any_eq_true, same, Group.Contains]

namespace PermissionStore

def EntryFor (store : PermissionStore) (id : SettingId) (entry : PermissionEntry) : Prop :=
  store.entries.find? (fun entry => entry.id = id) = some entry

/-- Who may write a setting: those whom the entries of all its groups name. For a setting none of whose groups has an
entry, those whom its own entry names, and without one those whom the default names. -/
structure WriteRule (groups : List Group) (store : PermissionStore) (identity : Identity) (id : SettingId) : Prop where
  grouped : (∃ group ∈ groups, group.Contains id ∧ ∃ entry, store.EntryFor group.groupId entry) →
    ∀ group ∈ groups, group.Contains id → ∀ entry, store.EntryFor group.groupId entry → entry.pMask.has identity = true
  ungrouped : (¬ ∃ group ∈ groups, group.Contains id ∧ ∃ entry, store.EntryFor group.groupId entry) →
    (∀ entry, store.EntryFor id entry → entry.pMask.has identity = true) ∧
      ((¬ ∃ entry, store.EntryFor id entry) → store.defaultPMask.has identity = true)

section

variable {store : PermissionStore} {identity : Identity}

theorem findPermissionEntry_eq_some_iff {id : SettingId} {entry : PermissionEntry} :
    store.findPermissionEntry id = some entry ↔ store.EntryFor id entry := by
  rw [findPermissionEntry_eq_find?, EntryFor]

/-- Groups without an entry do not count. One that has an entry decides, unless a later one denies. -/
theorem groupPermission_eq_none_iff {memberOfGroup : Bool} {groupIds : List SettingId} :
    store.groupPermission identity memberOfGroup groupIds = none ↔
      memberOfGroup = false ∧ ¬ ∃ groupId ∈ groupIds, ∃ entry, store.EntryFor groupId entry := by
  simp only [← findPermissionEntry_eq_some_iff]
  induction groupIds generalizing memberOfGroup with
  | nil => cases memberOfGroup <;> simp [groupPermission]
  | cons groupId groupIds ih =>
    rw [groupPermission]
    split
    · rename_i absent
      simp [ih, absent]
    · rename_i entry found
      split <;> simp [ih, found]

theorem groupPermission_eq_true_iff {memberOfGroup : Bool} {groupIds : List SettingId} :
    store.groupPermission identity memberOfGroup groupIds = some true ↔
      (memberOfGroup = true ∨ ∃ groupId ∈ groupIds, ∃ entry, store.EntryFor groupId entry) ∧
        ∀ groupId ∈ groupIds, ∀ entry, store.EntryFor groupId entry → entry.pMask.has identity = true := by
  simp only [← findPermissionEntry_eq_some_iff]
  induction groupIds generalizing memberOfGroup with
  | nil => cases memberOfGroup <;> simp [groupPermission]
  | cons groupId groupIds ih =>
    rw [groupPermission]
    split
    · rename_i absent
      simp [ih, absent]
    · rename_i entry found
      split
      · rename_i permits
        simp [ih, found, permits]
      · rename_i denies
        simp [found, denies]

theorem queryPermission_has_iff {id : SettingId} : (store.queryPermission id).has identity = true ↔
      (∀ entry, store.EntryFor id entry → entry.pMask.has identity = true) ∧
        ((¬ ∃ entry, store.EntryFor id entry) → store.defaultPMask.has identity = true) := by
  simp only [← findPermissionEntry_eq_some_iff]
  rw [queryPermission]
  split
  · rename_i absent
    simp [absent]
  · rename_i entry found
    simp [found]

theorem hasWritePermissions_iff_writeRule {groups : List Group} {id : SettingId} (short : id.chars.length ≤ 96) :
    hasWritePermissions groups store identity id = true ↔ WriteRule groups store identity id := by
  have inGroups : ∀ holds : SettingId → Prop, (∃ groupId ∈ groupIdsBySetting groups id, holds groupId) ↔
      ∃ group ∈ groups, group.Contains id ∧ holds group.groupId := by
    intro holds
    simp only [groupIdsBySetting, List.mem_map, List.mem_filter, Group.contains_iff_any short]
    aesop
  have allGroups : ∀ holds : SettingId → Prop, (∀ groupId ∈ groupIdsBySetting groups id, holds groupId) ↔
      ∀ group ∈ groups, group.Contains id → holds group.groupId := by
    intro holds
    simp only [groupIdsBySetting, List.mem_map, List.mem_filter, Group.contains_iff_any short]
    aesop
  rw [hasWritePermissions]
  cases decided : store.groupPermission identity false (groupIdsBySetting groups id) with
  | none =>
    have ungrouped := (groupPermission_eq_none_iff.mp decided).2
    rw [inGroups] at ungrouped
    rw [Option.getD_none, queryPermission_has_iff]
    exact ⟨fun own => ⟨fun grouped => absurd grouped ungrouped, fun _ => own⟩, fun rule => rule.ungrouped ungrouped⟩
  | some answer =>
    have grouped : ∃ group ∈ groups, group.Contains id ∧ ∃ entry, store.EntryFor group.groupId entry := by
      by_contra ungrouped
      rw [groupPermission_eq_none_iff.mpr ⟨rfl, fun found => ungrouped ((inGroups _).mp found)⟩] at decided
      cases decided
    have isTrue : answer = true ↔ ∀ group ∈ groups, group.Contains id → ∀ entry,
        store.EntryFor group.groupId entry → entry.pMask.has identity = true := by
      rw [← Option.some_inj, ← decided, groupPermission_eq_true_iff, inGroups, allGroups]
      exact ⟨And.right, fun all => ⟨.inr grouped, all⟩⟩
    rw [Option.getD_some, isTrue]
    exact ⟨fun all => ⟨fun _ => all, fun ungrouped => absurd grouped ungrouped⟩, fun rule => rule.grouped grouped⟩

end

end PermissionStore

section

variable {α : Type} [DecidableEq α]

/-- `HasWritePermissions` returns, and its answer follows the rule. The walk visits each group of the setting once, and
no others. Where the ids in a group keep to the limit on their length, its settings are those it lists. -/
theorem GroupList.hasWritePermissions_rule (list : GroupList α) (store : PermissionStore) (auth : AuthState)
    (token : AuthToken) (identity : Identity) (id : SettingId) (short : id.chars.length ≤ 96)
    (resolves : auth.getIdentityProperties token = .ok identity) : ∀ fuel, list.nodes.length < fuel →
      (∃ answer, list.hasWritePermissions fuel ⟨some store, auth.getIdentityProperties token⟩ id = some (.ok answer) ∧
        (answer = true ↔ store.WriteRule list.groups identity id)) ∧
      (∃ visited, list.visitGroups id fuel none = some visited ∧ visited.Nodup ∧
        ∀ node, node ∈ visited ↔ node ∈ list.nodes ∧ node.2.Contains id) ∧
      ∀ group ∈ list.groups, (∀ member ∈ group.members, member.chars.length ≤ 96) →
        (group.Contains id ↔ id ∈ group.members) := by
  intro fuel enough
  refine ⟨⟨PermissionStore.hasWritePermissions list.groups store identity id, ?_, ?_⟩,
    ⟨list.unvisited id none, ?_, ?_, ?_⟩, fun group _ named => group.contains_iff_mem named⟩
  · rw [list.hasWritePermissions_eq id _ enough, WriteRequest.hasWritePermissions, resolves]
  · exact PermissionStore.hasWritePermissions_iff_writeRule short
  · exact list.visitGroups_eq id (Nat.lt_of_le_of_lt (list.length_unvisited_none id) enough)
  · exact (List.Nodup.of_map Prod.fst list.distinct).filter _
  · intro node
    rw [unvisited, Cursor.remaining, List.mem_filter, Group.contains_iff_any short]

end

def frontCameraId : SettingId := .ofString "Device.FrontCamera.Enable"
def allCamerasId : SettingId := .ofString "Dfci.OnboardCameras.Enable"

def cameraList : GroupList Nat := ⟨[(1, ⟨allCamerasId, [frontCameraId]⟩)], List.nodup_singleton 1⟩

def cameraStore : PermissionStore :=
  ((PermissionStore.blankStore {}).addPermissionEntry allCamerasId Identity.signerOwner.bit Mask.none).2

/-- The default lets the local user write, but the group's entry does not. -/
theorem GroupList.hasWritePermissions_rule_cameras :
    let auth : AuthState := ⟨[⟨7, .local⟩], 0, none⟩
    cameraList.hasWritePermissions 2 ⟨some cameraStore, auth.getIdentityProperties 7⟩ frontCameraId =
        some (.ok false) ∧
      ¬ cameraStore.WriteRule cameraList.groups .local frontCameraId := by
  obtain ⟨⟨answer, returns, follows⟩, _⟩ := GroupList.hasWritePermissions_rule cameraList cameraStore
    ⟨[⟨7, .local⟩], 0, none⟩ 7 .local frontCameraId (by decide +kernel) rfl 2 (by decide)
  have denied : cameraList.hasWritePermissions 2 ⟨some cameraStore,
      AuthState.getIdentityProperties ⟨[⟨7, .local⟩], 0, none⟩ 7⟩ frontCameraId = some (.ok false) := by decide +kernel
  rw [denied] at returns
  cases returns
  exact ⟨denied, fun rule => Bool.false_ne_true (follows.mpr rule)⟩

end Dfci
