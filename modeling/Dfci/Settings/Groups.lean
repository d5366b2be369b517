import Dfci.Permission.GroupWalk
import Dfci.Support.Runs
import Mathlib.Data.List.Induction

/-! # Registering providers, and the groups their settings join

The platform has a table of groups. A group is registered together with the first of its settings. -/

namespace Dfci

open FirstMatch

/-- `DFCI_GROUP_ENTRY`, a row of the platform's table. The names of settings and groups have 96 characters at most. -/
structure GroupEntry where
  groupId : SettingId
  groupMembers : List SettingId
  named : groupId.chars.length ≤ 96
  membersNamed : ∀ member ∈ groupMembers, member.chars.length ≤ 96

def GroupEntry.lists (row : GroupEntry) (id : SettingId) : Bool :=
  row.groupMembers.any (sameSettingId id)

namespace Group

/-- `RegisterGroup` -/
def register (groups : List Group) (groupId : SettingId) : EfiStatus × List Group :=
  match findGroup groups groupId with
  | none => (.success, groups ++ [⟨groupId, []⟩])
  | some _ => (.alreadyStarted, groups)

def join (id groupId : SettingId) (groups : List Group) : List Group :=
  let groups :=
    match findGroup groups groupId with
    | none => (register groups groupId).2
    | some _ => groups
  modifyFirst (fun group => sameSettingId group.groupId groupId)
    (fun group => { group with members := group.members ++ [id] }) groups

end Group

/-- The loop of `RegisterSettingToGroup` over the table. Within a row it stops at the first entry for the setting. -/
def registerToRows (id : SettingId) : List GroupEntry → EfiStatus → List Group → EfiStatus × List Group
  | [], status, groups => (status, groups)
  | row :: rows, status, groups =>
    if row.lists id then registerToRows id rows .success (Group.join id row.groupId groups)
    else registerToRows id rows status groups

/-- `RegisterSettingToGroup`. A setting with the name of a registered group joins nothing. -/
def registerSettingToGroup (table : List GroupEntry) (id : SettingId) (groups : List Group) : EfiStatus × List Group :=
  match findGroup groups id with
  | some _ => (.unsupported, groups)
  | none => registerToRows id table .notFound groups

namespace Providers

/-- `RegisterProvider`. The provider is in the list before its groups are looked at, and their status is not returned. -/
def registerProvider (p : Platform) (table : List GroupEntry) (provider : SettingProvider)
    (providers : Providers) : EfiStatus × Providers :=
  if digit : provider.id.startsWithDigit = true then
    (.invalidParameter, providers)
  else
    match providers.findProviderById p provider.id with
    | some _ => (.invalidParameter, providers)
    | none =>
      (.success,
        { list := providers.list ++ [provider]
          groups := (registerSettingToGroup table provider.id providers.groups).2
          named := List.forall_mem_append.mpr ⟨providers.named, List.forall_mem_singleton.mpr (Bool.eq_false_iff.mpr digit)⟩ })

def register (p : Platform) (table : List GroupEntry) (providers : Providers) (provider : SettingProvider) :
    Providers :=
  (providers.registerProvider p table provider).2

def registered (p : Platform) (table : List GroupEntry) (registrations : List SettingProvider) : Providers :=
  Runs.run (register p table) empty registrations

end Providers

/-! ## Names within the limit -/

theorem sameSettingId_iff {first second : SettingId} (firstNamed : first.chars.length ≤ 96)
    (secondNamed : second.chars.length ≤ 96) : sameSettingId first second = true ↔ first = second := by
  rw [sameSettingId, decide_eq_true_eq, List.take_of_length_le firstNamed, List.take_of_length_le secondNamed]
  exact ⟨AsciiString.ext, fun same => same ▸ rfl⟩

theorem GroupEntry.lists_iff {row : GroupEntry} {id : SettingId} (named : id.chars.length ≤ 96) :
    row.lists id = true ↔ id ∈ row.groupMembers := by
  rw [GroupEntry.lists, List.any_eq_true]
  constructor
  · rintro ⟨mem, listed, same⟩
    rwa [(sameSettingId_iff named (row.membersNamed mem listed)).mp same]
  · intro listed
    exact ⟨id, listed, (sameSettingId_iff named named).mpr rfl⟩

/-! ## The group list as an assignment of settings to names -/

namespace Group

structure Represents (groups : List Group) (assigned : SettingId → List SettingId) : Prop where
  named : ∀ group ∈ groups, group.groupId.chars.length ≤ 96
  distinct : (groups.map Group.groupId).Nodup
  mem_iff : ∀ group, group ∈ groups ↔ group.members ≠ [] ∧ group.members = assigned group.groupId

theorem represents_nil : Represents [] fun _ => [] where
  named := List.forall_mem_nil _
  distinct := List.nodup_nil
  mem_iff := by simp

section

variable {groups : List Group} {assigned : SettingId → List SettingId} {groupId : SettingId}

theorem Represents.mem_groupIds (represents : Represents groups assigned) (groupId : SettingId) :
    groupId ∈ groups.map Group.groupId ↔ assigned groupId ≠ [] := by
  rw [List.mem_map]
  constructor
  · rintro ⟨group, mem, rfl⟩
    obtain ⟨nonempty, isAssigned⟩ := (represents.mem_iff group).mp mem
    rwa [← isAssigned]
  · intro nonempty
    exact ⟨⟨groupId, assigned groupId⟩, (represents.mem_iff _).mpr ⟨nonempty, rfl⟩, rfl⟩

theorem Represents.findGroup_eq_none_iff (represents : Represents groups assigned) (named : groupId.chars.length ≤ 96) :
    findGroup groups groupId = none ↔ assigned groupId = [] := by
  rw [← not_iff_not, ← ne_eq (assigned groupId), ← represents.mem_groupIds, findGroup, List.find?_eq_none, List.mem_map]
  simp only [not_forall, not_not, exists_prop]
  refine exists_congr fun group => and_congr_right fun mem => ?_
  exact sameSettingId_iff (represents.named group mem) named

structure Registers (groups : List Group) (assigned : SettingId → List SettingId) (groupId : SettingId) : Prop where
  named : ∀ group ∈ groups, group.groupId.chars.length ≤ 96
  distinct : (groups.map Group.groupId).Nodup
  mem_iff : ∀ group, group ∈ groups ↔
    (group.groupId = groupId ∨ group.members ≠ []) ∧ group.members = assigned group.groupId

theorem Represents.registers_new (represents : Represents groups assigned) (named : groupId.chars.length ≤ 96)
    (absent : assigned groupId = []) : Registers (groups ++ [⟨groupId, []⟩]) assigned groupId := by
  refine ⟨List.forall_mem_append.mpr ⟨represents.named, List.forall_mem_singleton.mpr named⟩, ?_, ?_⟩
  · have fresh : groupId ∉ groups.map Group.groupId :=
      fun mem => (represents.mem_groupIds groupId).mp mem absent
    simpa using List.Nodup.concat fresh represents.distinct
  · rintro ⟨name, members⟩
    rw [List.mem_append, represents.mem_iff, List.mem_singleton, Group.mk.injEq]
    constructor
    · rintro (⟨nonempty, isAssigned⟩ | ⟨rfl, rfl⟩)
      · exact ⟨.inr nonempty, isAssigned⟩
      · exact ⟨.inl rfl, absent.symm⟩
    · rintro ⟨rfl | nonempty, isAssigned⟩
      · exact .inr ⟨rfl, isAssigned.trans absent⟩
      · exact .inl ⟨nonempty, isAssigned⟩

theorem Represents.registers_old (represents : Represents groups assigned) (present : assigned groupId ≠ []) :
    Registers groups assigned groupId := by
  refine ⟨represents.named, represents.distinct, fun group => ?_⟩
  rw [represents.mem_iff]
  constructor
  · rintro ⟨nonempty, isAssigned⟩
    exact ⟨.inr nonempty, isAssigned⟩
  · rintro ⟨isName | nonempty, isAssigned⟩
    · exact ⟨fun empty => present (by rw [← isName, ← isAssigned, empty]), isAssigned⟩
    · exact ⟨nonempty, isAssigned⟩

/-- The setting goes to the one group of that name. -/
theorem Registers.mem_modifyFirst_iff (registers : Registers groups assigned groupId)
    (named : groupId.chars.length ≤ 96) (id : SettingId) (group : Group) :
    group ∈ modifyFirst (fun group => sameSettingId group.groupId groupId)
        (fun group => { group with members := group.members ++ [id] }) groups ↔
      ∃ original ∈ groups, (if original.groupId = groupId then { original with members := original.members ++ [id] }
        else original) = group := by
  have matches_iff : ∀ group ∈ groups, sameSettingId group.groupId groupId = true ↔ group.groupId = groupId :=
    fun group mem => sameSettingId_iff (registers.named group mem) named
  have single : groups.Pairwise fun first second =>
      ¬ (sameSettingId first.groupId groupId = true ∧ sameSettingId second.groupId groupId = true) := by
    refine (List.pairwise_map.mp registers.distinct).imp_of_mem fun {first second} inFirst inSecond differ both => ?_
    exact differ (((matches_iff first inFirst).mp both.1).trans ((matches_iff second inSecond).mp both.2).symm)
  rw [modifyFirst_eq_map _ single, List.mem_map]
  refine exists_congr fun original => and_congr_right fun mem => ?_
  rw [if_congr (matches_iff original mem) rfl rfl]

theorem Registers.represents (registers : Registers groups assigned groupId) (named : groupId.chars.length ≤ 96)
    (id : SettingId) : Represents (modifyFirst (fun group => sameSettingId group.groupId groupId)
        (fun group => { group with members := group.members ++ [id] }) groups)
      (Function.update assigned groupId (assigned groupId ++ [id])) := by
  refine ⟨?_, ?_, ?_⟩
  · intro group mem
    obtain ⟨original, inGroups, rfl⟩ := (registers.mem_modifyFirst_iff named id group).mp mem
    split
    · exact registers.named original inGroups
    · exact registers.named original inGroups
  · rw [map_modifyFirst]
    · exact registers.distinct
    · exact fun _ => rfl
  · intro group
    rw [registers.mem_modifyFirst_iff named]
    constructor
    · rintro ⟨original, inGroups, rfl⟩
      obtain ⟨reason, isAssigned⟩ := (registers.mem_iff original).mp inGroups
      by_cases isName : original.groupId = groupId
      · simp [isName, isAssigned]
      · simpa [isName] using ⟨reason.resolve_left isName, isAssigned⟩
    · rintro ⟨nonempty, isAssigned⟩
      by_cases isName : group.groupId = groupId
      · obtain ⟨name, members⟩ := group
        subst isName
        rw [Function.update_self] at isAssigned
        exact ⟨⟨name, assigned name⟩, (registers.mem_iff _).mpr ⟨.inl rfl, rfl⟩, by simpa using isAssigned.symm⟩
      · rw [Function.update_of_ne isName] at isAssigned
        exact ⟨group, (registers.mem_iff group).mpr ⟨.inr nonempty, isAssigned⟩, if_neg isName⟩

/-- Joining a group assigns the setting to its name. -/
theorem Represents.join (represents : Represents groups assigned) (named : groupId.chars.length ≤ 96)
    (id : SettingId) :
    Represents (join id groupId groups) (Function.update assigned groupId (assigned groupId ++ [id])) := by
  by_cases absent : assigned groupId = []
  · have joins := (represents.registers_new named absent).represents named id
    simpa [Group.join, register, (represents.findGroup_eq_none_iff named).mpr absent] using joins
  · have joins := (represents.registers_old absent).represents named id
    have present : findGroup groups groupId ≠ none := fun none => absent ((represents.findGroup_eq_none_iff named).mp none)
    obtain ⟨group, found⟩ := Option.ne_none_iff_exists'.mp present
    simpa [Group.join, found] using joins

/-- The walk over the table assigns the setting once for each row that lists it. -/
theorem Represents.registerToRows (represents : Represents groups assigned) (id : SettingId) (rows : List GroupEntry)
    (status : EfiStatus) : Represents (registerToRows id rows status groups).2 fun groupId =>
      assigned groupId ++ List.replicate (rows.countP fun row => row.groupId = groupId && row.lists id) id := by
  induction rows generalizing status groups assigned with
  | nil => simpa [Dfci.registerToRows] using represents
  | cons row rows ih =>
    rw [Dfci.registerToRows]
    by_cases listed : row.lists id = true
    · rw [if_pos listed]
      convert ih (represents.join row.named id) .success using 1
      funext groupId
      by_cases isRow : row.groupId = groupId
      · subst isRow
        simp [listed, List.replicate_succ]
      · simp [isRow, Function.update_of_ne (Ne.symm isRow)]
    · rw [if_neg listed]
      simpa [listed] using ih represents status

end

theorem groupIds_join (id groupId : SettingId) (groups : List Group) :
    groups.map Group.groupId ⊆ (join id groupId groups).map Group.groupId := by
  rw [join, map_modifyFirst Group.groupId (fun _ => by rfl)]
  split
  · rename_i absent
    simp [register, absent]
  · exact List.Subset.refl _

theorem groupIds_registerToRows (id : SettingId) (rows : List GroupEntry) (status : EfiStatus) (groups : List Group) :
    groups.map Group.groupId ⊆ (registerToRows id rows status groups).2.map Group.groupId := by
  induction rows generalizing status groups with
  | nil => exact List.Subset.refl _
  | cons row rows ih =>
    rw [registerToRows]
    split
    · exact List.Subset.trans (groupIds_join id row.groupId groups) (ih _ _)
    · exact ih _ _

theorem mem_join {id groupId member : SettingId} {groups : List Group} {group : Group}
    (isGroup : group ∈ join id groupId groups) (isMember : member ∈ group.members) :
    member = id ∨ ∃ original ∈ groups, member ∈ original.members := by
  have kept : ∀ original ∈ (match findGroup groups groupId with
      | none => (register groups groupId).2
      | some _ => groups), member ∈ original.members → ∃ original ∈ groups, member ∈ original.members := by
    intro original inGroups isMember
    split at inGroups
    · rename_i absent
      simp only [register, absent, List.mem_append, List.mem_singleton] at inGroups
      rcases inGroups with old | rfl
      · exact ⟨original, old, isMember⟩
      · cases isMember
    · exact ⟨original, inGroups, isMember⟩
  rcases mem_modifyFirst isGroup with old | ⟨original, found, rfl⟩
  · exact .inr (kept group old isMember)
  · rcases List.mem_append.mp isMember with old | isNew
    · exact .inr (kept original (List.mem_of_find?_eq_some found) old)
    · exact .inl (List.mem_singleton.mp isNew)

theorem mem_registerToRows {id member : SettingId} {rows : List GroupEntry} {status : EfiStatus} {groups : List Group}
    {group : Group} (isGroup : group ∈ (registerToRows id rows status groups).2) (isMember : member ∈ group.members) :
    member = id ∨ ∃ original ∈ groups, member ∈ original.members := by
  induction rows generalizing status groups with
  | nil => exact .inr ⟨group, isGroup, isMember⟩
  | cons row rows ih =>
    rw [registerToRows] at isGroup
    split at isGroup
    · rcases ih isGroup with isNew | ⟨original, joined, old⟩
      · exact .inl isNew
      · exact mem_join joined old
    · exact ih isGroup

end Group

/-! ## Runs of registrations -/

namespace Providers

def ids (providers : Providers) : List SettingId :=
  providers.list.map SettingProvider.id

def groupIds (providers : Providers) : List SettingId :=
  providers.groups.map Group.groupId

def tableMembers (table : List GroupEntry) (ids : List SettingId) (groupId : SettingId) : List SettingId :=
  ids.flatMap fun id => List.replicate (table.countP fun row => row.groupId = groupId && row.lists id) id

def Joined (table : List GroupEntry) (providers : Providers) : Prop :=
  Group.Represents providers.groups (tableMembers table providers.ids)

section

variable {p : Platform} {table : List GroupEntry} {providers : Providers} {provider : SettingProvider}

theorem mem_tableMembers {ids : List SettingId} {groupId id : SettingId} :
    id ∈ tableMembers table ids groupId ↔ id ∈ ids ∧ ∃ row ∈ table, row.groupId = groupId ∧ row.lists id = true := by
  simp only [tableMembers, List.mem_flatMap, List.mem_replicate, ne_eq, List.countP_eq_zero, not_forall, not_not,
    Bool.and_eq_true, decide_eq_true_eq, exists_prop]
  constructor
  · rintro ⟨listed, inIds, rows, rfl⟩
    exact ⟨inIds, rows⟩
  · rintro ⟨inIds, rows⟩
    exact ⟨id, inIds, rows, rfl⟩

/-- Within the limit on names, `FindProviderById` finds the providers by their ids. -/
theorem findProviderById_eq_none_iff (named : ∀ id ∈ providers.ids, id.chars.length ≤ 96) {id : SettingId}
    (isNamed : id.chars.length ≤ 96) (digit : id.startsWithDigit = false) :
    providers.findProviderById p id = none ↔ id ∉ providers.ids := by
  simp only [findProviderById, digit, Bool.false_eq_true, if_false, Option.bind_some, List.find?_eq_none, ids,
    List.mem_map, not_exists, not_and]
  refine forall_congr' fun other => imp_congr_right fun mem => not_congr ?_
  exact sameSettingId_iff (named other.id (List.mem_map_of_mem mem)) isNamed

/-- A provider is refused, or it is new and in the list from then on. -/
theorem register_cases (p : Platform) (table : List GroupEntry)
    (named : ∀ id ∈ providers.ids, id.chars.length ≤ 96) (isNamed : provider.id.chars.length ≤ 96) :
    (register p table providers provider = providers ∧
      (provider.id.startsWithDigit = true ∨ provider.id ∈ providers.ids)) ∨
    (provider.id.startsWithDigit = false ∧ provider.id ∉ providers.ids ∧
      (register p table providers provider).ids = providers.ids ++ [provider.id] ∧
      (register p table providers provider).groups =
        (registerSettingToGroup table provider.id providers.groups).2) := by
  by_cases digit : provider.id.startsWithDigit = true
  · exact .inl ⟨by simp [register, registerProvider, digit], .inl digit⟩
  · have plain : provider.id.startsWithDigit = false := Bool.eq_false_iff.mpr digit
    have absent : providers.findProviderById p provider.id = none ↔ provider.id ∉ providers.ids :=
      findProviderById_eq_none_iff named isNamed plain
    cases found : providers.findProviderById p provider.id with
    | none =>
      refine .inr ⟨plain, absent.mp found, ?_, ?_⟩
      · simp [register, registerProvider, digit, found, ids]
      · simp [register, registerProvider, digit, found]
    | some other =>
      refine .inl ⟨by simp [register, registerProvider, digit, found], .inr ?_⟩
      by_contra isNew
      rw [absent.mpr isNew] at found
      cases found

theorem groupIds_register (p : Platform) (table : List GroupEntry) (providers : Providers)
    (provider : SettingProvider) : providers.groupIds ⊆ (register p table providers provider).groupIds := by
  rw [register, registerProvider]
  split
  · exact List.Subset.refl _
  · split
    · exact List.Subset.refl _
    · simp only [registerSettingToGroup, groupIds]
      split
      · exact List.Subset.refl _
      · exact Group.groupIds_registerToRows _ _ _ _

/-- The members of groups are settings, with no condition on names. -/
def MembersRegistered (providers : Providers) : Prop :=
  ∀ group ∈ providers.groups, ∀ member ∈ group.members, member ∈ providers.ids

theorem MembersRegistered.register (members : MembersRegistered providers) :
    MembersRegistered (register p table providers provider) := by
  rw [Providers.register, registerProvider]
  split
  · exact members
  · split
    · exact members
    · intro group isGroup member isMember
      have later : ∀ id ∈ providers.ids, id ∈ (providers.list ++ [provider]).map SettingProvider.id := by
        intro id isSetting
        rw [List.map_append]
        exact List.mem_append_left _ isSetting
      simp only [registerSettingToGroup] at isGroup
      split at isGroup
      · exact later member (members group isGroup member isMember)
      · rcases Group.mem_registerToRows isGroup isMember with rfl | ⟨original, inGroups, old⟩
        · exact List.mem_map_of_mem (List.mem_append_right _ (List.mem_singleton_self _))
        · exact later member (members original inGroups member old)

theorem membersRegistered (registrations : List SettingProvider) :
    MembersRegistered (registered p table registrations) :=
  Runs.invariant (register p table) (fun _ _ held => held.register) (List.forall_mem_nil _) registrations

/-- A provider whose id is no group's joins its groups. -/
theorem Joined.register (joined : Joined table providers) (named : ∀ id ∈ providers.ids, id.chars.length ≤ 96)
    (isNamed : provider.id.chars.length ≤ 96)
    (apart : provider.id.startsWithDigit = false → provider.id ∉ providers.groupIds) :
    Joined table (register p table providers provider) := by
  rcases register_cases p table named isNamed with ⟨same, _⟩ | ⟨plain, _, isIds, isGroups⟩
  · rw [same]
    exact joined
  · have fresh : findGroup providers.groups provider.id = none := by
      rw [joined.findGroup_eq_none_iff isNamed]
      by_contra assigned
      exact apart plain ((joined.mem_groupIds _).mpr assigned)
    have joins := joined.registerToRows provider.id table .notFound
    rw [Joined, isIds, isGroups, registerSettingToGroup, fresh]
    convert joins using 1
    funext groupId
    simp [tableMembers]

end

section

variable {p : Platform} {table : List GroupEntry} {registrations : List SettingProvider}
  (named : ∀ provider ∈ registrations, provider.id.chars.length ≤ 96)
include named

/-- The settings of a run are those whose ids may be registered at all, each once. -/
theorem ids_registered (p : Platform) (table : List GroupEntry) : (registered p table registrations).ids.Nodup ∧
      ∀ id, id ∈ (registered p table registrations).ids ↔
        ∃ provider ∈ registrations, provider.id = id ∧ provider.id.startsWithDigit = false := by
  induction registrations using List.reverseRecOn with
  | nil => exact ⟨List.nodup_nil, by simp [registered, ids, empty]⟩
  | append_singleton registrations provider ih =>
    obtain ⟨named, isNamed⟩ := List.forall_mem_append.mp named
    obtain ⟨distinct, members⟩ := ih named
    have idsNamed : ∀ id ∈ (registered p table registrations).ids, id.chars.length ≤ 96 := by
      intro id mem
      obtain ⟨other, inList, rfl, _⟩ := (members id).mp mem
      exact named other inList
    rw [registered, Runs.run_append, Runs.run_cons, Runs.run_nil, ← registered]
    rcases register_cases p table idsNamed (isNamed provider List.mem_cons_self) with
      ⟨same, reason⟩ | ⟨plain, isNew, isIds, _⟩
    · rw [same]
      refine ⟨distinct, fun id => ?_⟩
      rw [members]
      simp only [List.mem_append, List.mem_singleton, or_and_right, exists_or, exists_eq_left, iff_self_or]
      rintro ⟨rfl, plain⟩
      rcases reason with digit | old
      · rw [digit] at plain
        cases plain
      · exact (members _).mp old
    · rw [isIds]
      refine ⟨by simpa using List.Nodup.concat isNew distinct, fun id => ?_⟩
      rw [List.mem_append, List.mem_singleton, members]
      simp only [List.mem_append, List.mem_singleton, or_and_right, exists_or, exists_eq_left, plain, and_true]
      exact or_congr_right eq_comm

theorem named_ids_registered : ∀ id ∈ (registered p table registrations).ids, id.chars.length ≤ 96 := by
  intro id mem
  obtain ⟨provider, inList, rfl, _⟩ := ((ids_registered named p table).2 id).mp mem
  exact named provider inList

end

section

variable {p : Platform} {table : List GroupEntry} {registrations : List SettingProvider}

theorem registered_append (provider : SettingProvider) : registered p table (registrations ++ [provider]) =
      register p table (registered p table registrations) provider := by
  rw [registered, Runs.run_append, Runs.run_cons, Runs.run_nil, registered]

theorem joined_empty : Joined table empty := Group.represents_nil

/-- No row that lists a setting of the run has the name of a setting of the run. -/
def NamesApart (table : List GroupEntry) (registrations : List SettingProvider) : Prop :=
  ∀ row ∈ table, ∀ first ∈ registrations, ∀ second ∈ registrations, first.id.startsWithDigit = false →
    second.id.startsWithDigit = false → row.groupId = first.id → second.id ∉ row.groupMembers

theorem NamesApart.dropLast {provider : SettingProvider} (apart : NamesApart table (registrations ++ [provider])) :
    NamesApart table registrations :=
  fun row inTable first inFirst second inSecond =>
    apart row inTable first (List.mem_append_left _ inFirst) second (List.mem_append_left _ inSecond)

/-- A group is there exactly when a row that lists a registered setting names it. -/
theorem Joined.mem_groupIds {providers : Providers} (joined : Joined table providers)
    (named : ∀ id ∈ providers.ids, id.chars.length ≤ 96) {groupId : SettingId} :
    groupId ∈ providers.groupIds ↔ ∃ row ∈ table, row.groupId = groupId ∧ ∃ id ∈ providers.ids, id ∈ row.groupMembers := by
  rw [groupIds, Group.Represents.mem_groupIds joined, ne_eq, List.eq_nil_iff_forall_not_mem, not_forall_not]
  simp only [mem_tableMembers]
  constructor
  · rintro ⟨id, registered, row, inTable, isRow, listed⟩
    exact ⟨row, inTable, isRow, id, registered, (GroupEntry.lists_iff (named id registered)).mp listed⟩
  · rintro ⟨row, inTable, isRow, id, registered, listed⟩
    exact ⟨id, registered, row, inTable, isRow, (GroupEntry.lists_iff (named id registered)).mpr listed⟩

/-- The members of a group are registered settings. -/
theorem Joined.members {providers : Providers} (joined : Joined table providers) {group : Group}
    (mem : group ∈ providers.groups) {id : SettingId} :
    id ∈ group.members ↔ id ∈ providers.ids ∧ ∃ row ∈ table, row.groupId = group.groupId ∧ row.lists id = true := by
  rw [((Group.Represents.mem_iff joined group).mp mem).2, mem_tableMembers]

theorem joined_of_namesApart (p : Platform) (named : ∀ provider ∈ registrations, provider.id.chars.length ≤ 96)
    (apart : NamesApart table registrations) : Joined table (registered p table registrations) := by
  induction registrations using List.reverseRecOn with
  | nil => exact joined_empty
  | append_singleton registrations provider ih =>
    obtain ⟨named, isNamed⟩ := List.forall_mem_append.mp named
    have joined := ih named apart.dropLast
    have idsNamed : ∀ id ∈ (registered p table registrations).ids, id.chars.length ≤ 96 :=
      named_ids_registered named
    rw [registered_append]
    refine joined.register idsNamed (isNamed provider List.mem_cons_self) fun plain isGroup => ?_
    obtain ⟨row, inTable, isRow, id, mem, listed⟩ := (joined.mem_groupIds idsNamed).mp isGroup
    obtain ⟨other, inList, rfl, otherPlain⟩ := ((ids_registered named p table).2 id).mp mem
    exact apart row inTable provider (by simp) other (by simp [inList]) plain otherPlain isRow listed

def Apart (providers : Providers) : Prop :=
  ∀ id ∈ providers.ids, id ∉ providers.groupIds

theorem Apart.before_register {providers : Providers} {provider : SettingProvider}
    (named : ∀ id ∈ providers.ids, id.chars.length ≤ 96) (isNamed : provider.id.chars.length ≤ 96)
    (apart : Apart (register p table providers provider)) :
    Apart providers ∧ (provider.id.startsWithDigit = false → provider.id ∉ providers.groupIds) := by
  have grows := groupIds_register p table providers provider
  rcases register_cases p table named isNamed with ⟨same, reason⟩ | ⟨_, _, isIds, _⟩
  · rw [same] at apart
    refine ⟨apart, fun plain => ?_⟩
    rcases reason with digit | old
    · rw [plain] at digit
      cases digit
    · exact apart provider.id old
  · refine ⟨fun id mem isGroup => ?_, fun _ isGroup => ?_⟩
    · exact apart id (isIds ▸ List.mem_append_left _ mem) (grows isGroup)
    · exact apart provider.id (isIds ▸ by simp) (grows isGroup)

/-- As long as no setting has the name of a group, every setting joins its groups. -/
theorem joined_of_apart (named : ∀ provider ∈ registrations, provider.id.chars.length ≤ 96)
    (apart : Apart (registered p table registrations)) : Joined table (registered p table registrations) := by
  induction registrations using List.reverseRecOn with
  | nil => exact joined_empty
  | append_singleton registrations provider ih =>
    obtain ⟨named, isNamed⟩ := List.forall_mem_append.mp named
    have idsNamed : ∀ id ∈ (registered p table registrations).ids, id.chars.length ≤ 96 :=
      named_ids_registered named
    rw [registered_append] at apart ⊢
    obtain ⟨before, isNew⟩ := apart.before_register idsNamed (isNamed provider List.mem_cons_self)
    exact (ih named before).register idsNamed (isNamed provider List.mem_cons_self) isNew

theorem apart_iff_namesApart (p : Platform) (named : ∀ provider ∈ registrations, provider.id.chars.length ≤ 96) :
    Apart (registered p table registrations) ↔ NamesApart table registrations := by
  have idsNamed : ∀ id ∈ (registered p table registrations).ids, id.chars.length ≤ 96 :=
    named_ids_registered named
  have memIds := (ids_registered named p table).2
  constructor
  · intro apart row inTable first inFirst second inSecond firstPlain secondPlain isRow listed
    have joined := joined_of_apart named apart
    refine apart first.id ((memIds _).mpr ⟨first, inFirst, rfl, firstPlain⟩) ((joined.mem_groupIds idsNamed).mpr ?_)
    exact ⟨row, inTable, isRow, second.id, (memIds _).mpr ⟨second, inSecond, rfl, secondPlain⟩, listed⟩
  · intro apart id mem isGroup
    have joined := joined_of_namesApart p named apart
    obtain ⟨row, inTable, isRow, other, registered, listed⟩ := (joined.mem_groupIds idsNamed).mp isGroup
    obtain ⟨first, inFirst, rfl, firstPlain⟩ := (memIds id).mp mem
    obtain ⟨second, inSecond, rfl, secondPlain⟩ := (memIds other).mp registered
    exact apart row inTable first inFirst second inSecond firstPlain secondPlain isRow listed

/-- No id is that of a provider and that of a group, and no group is a member of a group. -/
structure NoCollision (providers : Providers) : Prop where
  apart : ∀ provider ∈ providers.list, ∀ group ∈ providers.groups, provider.id ≠ group.groupId
  flat : ∀ group ∈ providers.groups, ∀ other ∈ providers.groups, group.groupId ∉ other.members

/-- Names collide at the end of a run exactly when a row of the table that lists a setting of the run has the name of a
setting of the run, its own settings included. -/
theorem noCollision_iff (p : Platform) (table : List GroupEntry) (registrations : List SettingProvider)
    (named : ∀ provider ∈ registrations, provider.id.chars.length ≤ 96) :
    NoCollision (registered p table registrations) ↔ NamesApart table registrations := by
  rw [← apart_iff_namesApart p named]
  have apart_iff : Apart (registered p table registrations) ↔
      ∀ provider ∈ (registered p table registrations).list,
        ∀ group ∈ (registered p table registrations).groups, provider.id ≠ group.groupId := by
    simp only [Apart, ids, groupIds, List.mem_map]
    constructor
    · intro apart provider mem group isGroup same
      exact apart provider.id ⟨provider, mem, rfl⟩ ⟨group, isGroup, same.symm⟩
    · rintro apart _ ⟨provider, mem, rfl⟩ ⟨group, isGroup, same⟩
      exact apart provider mem group isGroup same.symm
  constructor
  · intro noCollision
    exact apart_iff.mpr noCollision.apart
  · intro apart
    refine ⟨apart_iff.mp apart, fun group isGroup other isOther mem => ?_⟩
    -- a member is a setting, so a group among them has the name of a setting
    have isSetting := ((joined_of_apart named apart).members isOther).mp mem
    exact apart group.groupId isSetting.1 (List.mem_map_of_mem isGroup)

end

theorem allCamerasId_short : allCamerasId.chars.length ≤ 96 := by
  decide +kernel

def cameraTable : List GroupEntry :=
  [⟨allCamerasId, [frontCameraId], allCamerasId_short, by decide +kernel⟩]

def enableProvider (id : SettingId) : SettingProvider := ⟨id, .enable, 0, [0]⟩

def rearCameraId : SettingId := .ofString "Device.RearCamera.Enable"
def microphoneId : SettingId := .ofString "Device.Microphone.Enable"
def onboardAudioId : SettingId := .ofString "Dfci.OnboardAudio.Enable"

/-- Two groups with a camera in common. -/
def deviceTable : List GroupEntry :=
  [⟨allCamerasId, [frontCameraId, rearCameraId], allCamerasId_short, by decide +kernel⟩,
    ⟨onboardAudioId, [microphoneId, frontCameraId], by decide +kernel, by decide +kernel⟩]

def deviceSettings : List SettingProvider :=
  [enableProvider rearCameraId, enableProvider microphoneId, enableProvider frontCameraId]

theorem noCollision_cameras : NoCollision (registered {} deviceTable deviceSettings) := by
  refine (noCollision_iff {} deviceTable deviceSettings (by decide +kernel)).mpr ?_
  rw [NamesApart]
  decide +kernel

/-- A provider takes the name of a group that its first setting registers after it. -/
theorem cameras_collide :
    ¬ NoCollision (registered {} cameraTable [enableProvider allCamerasId, enableProvider frontCameraId]) := by
  intro noCollision
  have apart := noCollision.apart
  revert apart
  decide +kernel

/-! ## Groups and the platform's table -/

/-- The groups are the rows of the table that list a registered setting, each with exactly these settings, once. -/
structure FollowTable (p : Platform) (table : List GroupEntry) (providers : Providers) : Prop where
  distinct : providers.groupIds.Nodup
  rows : ∀ groupId, groupId ∈ providers.groupIds ↔
    ∃ row ∈ table, row.groupId = groupId ∧ ∃ id ∈ providers.ids, id ∈ row.groupMembers
  members : ∀ group ∈ providers.groups, ∀ row ∈ table, row.groupId = group.groupId →
    group.members.Nodup ∧ ∀ id, id ∈ group.members ↔ id ∈ providers.ids ∧ id ∈ row.groupMembers
  found : ∀ group ∈ providers.groups, ∀ id ∈ group.members,
    ∃ provider ∈ providers.list, provider.id = id ∧ providers.findProviderById p id = some provider

def SameGroups (first second : Providers) : Prop :=
  first.groupIds.Perm second.groupIds ∧ ∀ group ∈ first.groups, ∃ other ∈ second.groups,
    other.groupId = group.groupId ∧ other.members.Perm group.members

section

variable {p : Platform} {table : List GroupEntry}

/-- In a table without repeated names a setting is assigned to a name once at most. -/
theorem nodup_tableMembers (distinct : (table.map GroupEntry.groupId).Nodup) {ids : List SettingId}
    (idsDistinct : ids.Nodup) (groupId : SettingId) : (tableMembers table ids groupId).Nodup := by
  refine List.nodup_flatMap.mpr ⟨fun id _ => List.nodup_replicate.mpr ?_, ?_⟩
  · calc table.countP (fun row => row.groupId = groupId && row.lists id)
        ≤ table.countP (fun row => row.groupId == groupId) := by
          apply List.countP_mono_left
          intro row _ both
          simpa using (Bool.and_eq_true_iff.mp both).1
      _ = (table.map GroupEntry.groupId).count groupId := by
          rw [List.count_eq_countP, List.countP_map]
          rfl
      _ ≤ 1 := List.nodup_iff_count_le_one.mp distinct groupId
  · refine idsDistinct.imp fun {first second} differ id inFirst inSecond => ?_
    exact differ ((List.eq_of_mem_replicate inFirst).symm.trans (List.eq_of_mem_replicate inSecond))

theorem findProviderById_of_mem {providers : Providers} (named : ∀ id ∈ providers.ids, id.chars.length ≤ 96)
    {id : SettingId} (mem : id ∈ providers.ids) :
    ∃ provider ∈ providers.list, provider.id = id ∧ providers.findProviderById p id = some provider := by
  obtain ⟨registered, inList, rfl⟩ := List.mem_map.mp mem
  have plain := providers.named registered inList
  have present : providers.findProviderById p registered.id ≠ none :=
    fun absent => (findProviderById_eq_none_iff named (named _ mem) plain).mp absent mem
  obtain ⟨provider, found⟩ := Option.ne_none_iff_exists'.mp present
  refine ⟨provider, ?_, ?_, found⟩
  · simp only [findProviderById, plain, Bool.false_eq_true, if_false, Option.bind_some] at found
    exact List.mem_of_find?_eq_some found
  · simp only [findProviderById, plain, Bool.false_eq_true, if_false, Option.bind_some] at found
    have inProviders : provider.id ∈ providers.ids := List.mem_map_of_mem (List.mem_of_find?_eq_some found)
    have same := List.find?_some found
    exact (sameSettingId_iff (named _ inProviders) (named _ mem)).mp same

theorem Joined.followTable {providers : Providers} (joined : Joined table providers)
    (distinct : (table.map GroupEntry.groupId).Nodup) (idsDistinct : providers.ids.Nodup)
    (named : ∀ id ∈ providers.ids, id.chars.length ≤ 96) : FollowTable p table providers where
  distinct := Group.Represents.distinct joined
  rows := fun _ => joined.mem_groupIds named
  members := by
    intro group isGroup row inTable isRow
    constructor
    · rw [((Group.Represents.mem_iff joined group).mp isGroup).2]
      exact nodup_tableMembers distinct idsDistinct _
    · intro id
      rw [joined.members isGroup]
      refine and_congr_right fun mem => ?_
      rw [← GroupEntry.lists_iff (named id mem)]
      constructor
      · rintro ⟨other, inOther, isOther, listed⟩
        rwa [List.inj_on_of_nodup_map distinct inTable inOther (isRow.trans isOther.symm)]
      · exact fun listed => ⟨row, inTable, isRow, listed⟩
  found := fun _ isGroup _ mem => findProviderById_of_mem named ((joined.members isGroup).mp mem).1

/-- Which groups there are, and their settings, depends only on which settings there are. -/
theorem FollowTable.sameGroups {first second : Providers} (firstFollows : FollowTable p table first)
    (secondFollows : FollowTable p table second) (same : ∀ id, id ∈ first.ids ↔ id ∈ second.ids) :
    SameGroups first second := by
  have sameIds : ∀ groupId, groupId ∈ first.groupIds ↔ groupId ∈ second.groupIds := by
    intro groupId
    rw [firstFollows.rows, secondFollows.rows]
    simp only [same]
  refine ⟨(List.perm_ext_iff_of_nodup firstFollows.distinct secondFollows.distinct).mpr sameIds, fun group isGroup => ?_⟩
  obtain ⟨other, isOther, sameName⟩ := List.mem_map.mp ((sameIds _).mp (List.mem_map_of_mem isGroup))
  obtain ⟨row, inTable, isRow, _⟩ := (firstFollows.rows _).mp (List.mem_map_of_mem isGroup)
  obtain ⟨groupDistinct, groupMembers⟩ := firstFollows.members group isGroup row inTable isRow
  obtain ⟨otherDistinct, otherMembers⟩ := secondFollows.members other isOther row inTable (isRow.trans sameName.symm)
  refine ⟨other, isOther, sameName, (List.perm_ext_iff_of_nodup otherDistinct groupDistinct).mpr fun id => ?_⟩
  rw [otherMembers, groupMembers, same]

end

/-- Where the table's names are distinct and those of no providers, the groups follow the table after every sequence of
registrations, and the order of the registrations does not matter. -/
theorem groups_followTable (p : Platform) (table : List GroupEntry) (registrations : List SettingProvider)
    (distinct : (table.map GroupEntry.groupId).Nodup)
    (named : ∀ provider ∈ registrations, provider.id.chars.length ≤ 96)
    (apart : ∀ row ∈ table, ∀ provider ∈ registrations, row.groupId ≠ provider.id) :
    FollowTable p table (registered p table registrations) ∧ ∀ reordered, reordered.Perm registrations →
        SameGroups (registered p table reordered) (registered p table registrations) := by
  have follows : ∀ reordered : List SettingProvider, reordered.Perm registrations →
      FollowTable p table (registered p table reordered) := by
    intro reordered perm
    have isNamed : ∀ provider ∈ reordered, provider.id.chars.length ≤ 96 :=
      fun provider mem => named provider (perm.mem_iff.mp mem)
    have namesApart : NamesApart table reordered :=
      fun row inTable first inFirst _ _ _ _ same => absurd same (apart row inTable first (perm.mem_iff.mp inFirst))
    exact (joined_of_namesApart p isNamed namesApart).followTable distinct
      (ids_registered isNamed p table).1 (named_ids_registered isNamed)
  refine ⟨follows registrations (.refl _), fun reordered perm => ?_⟩
  refine (follows reordered perm).sameGroups (follows registrations (.refl _)) fun id => ?_
  have isNamed : ∀ provider ∈ reordered, provider.id.chars.length ≤ 96 :=
    fun provider mem => named provider (perm.mem_iff.mp mem)
  rw [(ids_registered isNamed p table).2, (ids_registered named p table).2]
  simp only [perm.mem_iff]

theorem groups_followTable_cameras : (registered {} deviceTable deviceSettings).groups =
      [⟨allCamerasId, [rearCameraId, frontCameraId]⟩, ⟨onboardAudioId, [microphoneId, frontCameraId]⟩] ∧
    FollowTable {} deviceTable (registered {} deviceTable deviceSettings) ∧
      SameGroups (registered {} deviceTable deviceSettings.reverse) (registered {} deviceTable deviceSettings) := by
  obtain ⟨follows, anyOrder⟩ := groups_followTable {} deviceTable deviceSettings (by decide +kernel) (by decide +kernel)
    (by decide +kernel)
  exact ⟨by decide +kernel, follows, anyOrder _ (List.reverse_perm _)⟩

end Providers

end Dfci
