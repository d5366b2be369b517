import Dfci.Settings.Authorised
import Dfci.Settings.Groups
import Dfci.Support.CommonValue

/-! # Reading a setting

`InternalSystemSettingAccessGet`. A group is read member by member into one local byte; the flags of the caller are
those of the member that was read last. -/

namespace Dfci

/-- `DFCI_SETTING_FLAGS_OUT_WRITE_ACCESS` -/
def SettingFlags.outWriteAccess : SettingFlags := 0x100

/-- `ENABLE_INCONSISTENT` -/
def enableInconsistent : Byte := 0xFF

/-- What a provider's `GetSettingValue` leaves: the status, the caller's `ValueSize`, and what it wrote to the buffer. -/
structure GetAnswer where
  status : EfiStatus
  size : Nat
  written : List Byte
  deriving DecidableEq

/-- `GetSettingValue` of the provider with an id, from the value that it keeps and the size of the buffer. -/
structure GetSettingValue where
  answer : SettingId → List Byte → Nat → GetAnswer
  fits : ∀ id value size, (answer id value size).written.length ≤ size
  sized : ∀ id value size, (answer id value size).status = .success →
    (answer id value size).size = (answer id value size).written.length

/-- What a call to get a setting leaves. The flags are optional. -/
structure SettingGet where
  status : EfiStatus
  size : Nat
  written : List Byte
  flags : Option SettingFlags
  deriving DecidableEq

def SettingGet.seen (got : SettingGet) : EfiStatus × List Byte :=
  (got.status, got.written)

namespace Providers

section

variable (p : Platform) (get : GetSettingValue) (req : Option WriteRequest)

/-- The flags that are returned for a provider. Without a token, and where the permission cannot be told, there is no
write access. -/
def reportedFlags (providers : Providers) (provider : SettingProvider) (id : SettingId) : SettingFlags :=
  match req with
  | none => provider.flags
  | some req =>
    match req.hasWritePermissions providers.groups id with
    | .ok true => provider.flags ||| SettingFlags.outWriteAccess
    | .ok false | .error _ => provider.flags

/-- `InternalSystemSettingAccessGet`, for a provider that was found. -/
def accessGetProvider (providers : Providers) (provider : SettingProvider) (id : SettingId) (type : SettingType)
    (size : Nat) (flags : Option SettingFlags) : SettingGet :=
  if type ≠ provider.type then
    ⟨.invalidParameter, size, [], flags⟩
  else
    let answer := get.answer provider.id provider.value size
    ⟨answer.status, answer.size, answer.written, flags.map fun _ => reportedFlags req providers provider id⟩

/-- The call for a member of a group, where a second group is refused. -/
def accessGetMember (providers : Providers) (type : SettingType) (id : SettingId) (size : Nat)
    (flags : Option SettingFlags) : SettingGet :=
  match providers.findProviderById p id with
  | none => ⟨.unsupported, size, [], flags⟩
  | some provider => accessGetProvider get req providers provider id type size flags

structure GroupRead where
  returnStatus : EfiStatus
  masterValue : Byte
  localValue : Byte
  flags : Option SettingFlags

/-- The member loop. A member that fails is passed over, and a member that differs ends the loop. -/
def getMembers (providers : Providers) (type : SettingType) : List SettingId → GroupRead → GroupRead
  | [], read => read
  | id :: ids, read =>
    let got := accessGetMember p get req providers type id 1 read.flags
    let localValue := got.written.headD read.localValue
    if got.status.isError then
      getMembers providers type ids
        { read with returnStatus := got.status, localValue := localValue, flags := got.flags }
    else if read.masterValue = enableInconsistent then
      getMembers providers type ids { read with masterValue := localValue, localValue := localValue, flags := got.flags }
    else if read.masterValue ≠ localValue then
      { read with masterValue := enableInconsistent, localValue := localValue, flags := got.flags }
    else
      getMembers providers type ids { read with localValue := localValue, flags := got.flags }

/-- `InternalSystemSettingAccessGet`, where `localValue` is what the byte on the stack holds before the loop. -/
def internalSystemSettingAccessGet (localValue : Byte) (providers : Providers) (id : SettingId) (type : SettingType)
    (size : Nat) (flags : Option SettingFlags) : SettingGet :=
  match providers.findProviderById p id with
  | some provider => accessGetProvider get req providers provider id type size flags
  | none =>
    match findGroup providers.groups id with
    | none => ⟨.notFound, size, [], flags⟩
    | some group =>
      if size < 1 then
        ⟨.bufferTooSmall, 1, [], flags⟩
      else
        let read := getMembers p get req providers type group.members
          ⟨.success, enableInconsistent, localValue, flags⟩
        match read.returnStatus with
        | .success => ⟨.success, 1, [read.masterValue], read.flags⟩
        | .bufferTooSmall => ⟨.bufferTooSmall, 1, [], read.flags⟩
        | status => ⟨status, size, [], read.flags⟩

def memberValue (providers : Providers) (type : SettingType) (id : SettingId) : Except EfiStatus (List Byte) :=
  let got := accessGetMember p get none providers type id 1 none
  if got.status.isError then .error got.status else .ok got.written

end

/-! ## The value of a group -/

open CommonValue

section

variable (p : Platform) (get : GetSettingValue) (req : Option WriteRequest)

def memberReading (providers : Providers) (type : SettingType) (id : SettingId) : Reading Nat Byte :=
  let got := accessGetMember p get none providers type id 1 none
  ⟨match got.status with
    | .success => none
    | .error code => some code, got.written.head?⟩

structure Reordered (providers other : Providers) (id : SettingId) : Prop where
  list : other.list = providers.list
  members : ∃ group otherGroup, findGroup providers.groups id = some group ∧ findGroup other.groups id = some otherGroup ∧
    otherGroup.members.Perm group.members

/-- What reading a group should give: the value that all members have, or `ENABLE_INCONSISTENT`. -/
structure CommonReport (value : SettingId → Except EfiStatus (List Byte)) (members : List SettingId)
    (seen : EfiStatus × List Byte) : Prop where
  succeeds : seen.1 = .success ↔ ∀ member ∈ members, ∃ own, value member = .ok own
  common : ∀ own, (∀ member ∈ members, value member = .ok own) → seen.2 = own
  inconsistent : (∀ member ∈ members, ∃ own, value member = .ok own) →
    (¬ ∃ own, ∀ member ∈ members, value member = .ok own) → seen.2 = [enableInconsistent]

/-- Reading the group gives that, in every order of the members and whatever the stack holds. -/
structure ReportsCommonValue (providers : Providers) (id : SettingId) (type : SettingType) (size : Nat)
    (flags : Option SettingFlags) (members : List SettingId) : Prop where
  reports : ∀ localValue, CommonReport (memberValue p get providers type) members
    (internalSystemSettingAccessGet p get req localValue providers id type size flags).seen
  orderless : ∀ other, Reordered providers other id → ∀ localValue otherLocal,
    (internalSystemSettingAccessGet p get req otherLocal other id type size flags).seen =
      (internalSystemSettingAccessGet p get req localValue providers id type size flags).seen

end

section

variable {p : Platform} {get : GetSettingValue} {req : Option WriteRequest} {providers : Providers}

/-- The token and the flags have no part in the status and the value. -/
theorem accessGetMember_status (type : SettingType) (id : SettingId) (size : Nat) (flags : Option SettingFlags) :
    let got := accessGetMember p get req providers type id size flags
    let alone := accessGetMember p get none providers type id size none
    got.status = alone.status ∧ got.written = alone.written := by
  simp only [accessGetMember]
  split
  · exact ⟨rfl, rfl⟩
  · simp only [accessGetProvider]
    split <;> exact ⟨rfl, rfl⟩

/-- What the local byte holds after the call for a member. -/
theorem accessGetMember_cell (type : SettingType) (id : SettingId) (flags : Option SettingFlags) (localValue : Byte) :
    (accessGetMember p get req providers type id 1 flags).written.headD localValue =
      (memberReading p get providers type id).written.getD localValue := by
  rw [(accessGetMember_status type id 1 flags).2, List.headD_eq_head?_getD]
  rfl

theorem length_memberWritten (type : SettingType) (id : SettingId) :
    (accessGetMember p get none providers type id 1 none).written.length ≤ 1 := by
  rw [accessGetMember]
  split
  · exact Nat.zero_le 1
  · rw [accessGetProvider]
    split
    · exact Nat.zero_le 1
    · exact get.fits ..

theorem memberValue_eq (type : SettingType) (id : SettingId) : memberValue p get providers type id =
      match (memberReading p get providers type id).error with
      | some code => .error (.error code)
      | none => .ok (memberReading p get providers type id).written.toList := by
  have short : (accessGetMember p get none providers type id 1 none).written.length ≤ 1 :=
    length_memberWritten type id
  simp only [memberValue, memberReading]
  generalize accessGetMember p get none providers type id 1 none = got at short
  have whole : got.written.head?.toList = got.written := by
    cases written : got.written with
    | nil => rfl
    | cons byte bytes =>
      have none : bytes = [] := List.eq_nil_of_length_eq_zero (by simpa [written] using short)
      rw [none]
      rfl
  cases status : got.status with
  | success => simp [whole]
  | error code => rfl

theorem memberValue_eq_ok {type : SettingType} {id : SettingId} {value : List Byte} :
    memberValue p get providers type id = .ok value ↔ (memberReading p get providers type id).error = none ∧
        (memberReading p get providers type id).written.toList = value := by
  rw [memberValue_eq]
  cases (memberReading p get providers type id).error <;> simp

variable (p get req providers) in
/-- The member loop scans the readings. -/
theorem getMembers_scan (type : SettingType) (ids : List SettingId) (read : GroupRead) (status : Option Nat)
    (sofar : read.returnStatus = status.elim .success .error) :
    let after := getMembers p get req providers type ids read
    let scanned := scan enableInconsistent (ids.map (memberReading p get providers type)) status read.masterValue
      read.localValue
    after.returnStatus = scanned.1.elim .success .error ∧ after.masterValue = scanned.2 := by
  induction ids generalizing read status with
  | nil => exact ⟨sofar, rfl⟩
  | cons id ids ih =>
    have sameStatus : (accessGetMember p get req providers type id 1 read.flags).status =
        (accessGetMember p get none providers type id 1 none).status := (accessGetMember_status type id 1 read.flags).1
    simp only [getMembers, List.map_cons, accessGetMember_cell]
    cases result : (accessGetMember p get none providers type id 1 none).status with
    | error code =>
      have fails : (memberReading p get providers type id).error = some code := by
        simp only [memberReading, result]
      rw [if_pos (by rw [sameStatus, result]; rfl), scan_cons_error fails]
      exact ih _ _ (sameStatus.trans result)
    | success =>
      have reads : (memberReading p get providers type id).error = none := by
        simp only [memberReading, result]
      rw [if_neg (by rw [sameStatus, result]; simp), scan_cons_ok reads]
      split
      · exact ih _ _ sofar
      · split
        · exact ⟨sofar, rfl⟩
        · exact ih _ _ sofar

def groupOutcome : Except Nat Byte → EfiStatus × List Byte
  | .ok value => (.success, [value])
  | .error code => (.error code, [])

theorem groupOutcome_injective : Function.Injective groupOutcome := by
  intro first second same
  cases first <;> cases second <;> simp_all [groupOutcome]

theorem groupOutcome_observed_status (scanned : Option Nat × Byte) :
    (groupOutcome (observed scanned)).1 = .success ↔ scanned.1 = none := by
  obtain ⟨error, value⟩ := scanned
  cases error <;> simp [observed, groupOutcome]

theorem groupOutcome_observed_written {scanned : Option Nat × Byte} (succeeds : scanned.1 = none) :
    (groupOutcome (observed scanned)).2 = [scanned.2] := by
  rw [observed, succeeds, groupOutcome]

def membersOutcome (p : Platform) (get : GetSettingValue) (providers : Providers) (type : SettingType)
    (members : List SettingId) (localValue : Byte) : EfiStatus × List Byte :=
  groupOutcome (observed (scan enableInconsistent (members.map (memberReading p get providers type)) none
    enableInconsistent localValue))

variable (p get req) in
theorem accessGet_group {id : SettingId} {group : Group} {size : Nat}
    (noProvider : providers.findProviderById p id = none) (found : findGroup providers.groups id = some group)
    (room : 0 < size) (localValue : Byte) (type : SettingType) (flags : Option SettingFlags) :
    (internalSystemSettingAccessGet p get req localValue providers id type size flags).seen =
      membersOutcome p get providers type group.members localValue := by
  obtain ⟨status, value⟩ := getMembers_scan p get req providers type group.members
    ⟨.success, enableInconsistent, localValue, flags⟩ none rfl
  simp only [internalSystemSettingAccessGet, noProvider, found, if_neg (show ¬ size < 1 by omega), status, value,
    membersOutcome]
  generalize scan enableInconsistent (group.members.map (memberReading p get providers type)) none
    enableInconsistent localValue = scanned
  obtain ⟨error, value⟩ := scanned
  cases error with
  | none => rfl
  | some code =>
    simp only [Option.elim_some, observed, groupOutcome]
    split
    · rename_i absurd
      cases absurd
    · rename_i tooSmall
      cases tooSmall
      rfl
    · rfl

theorem forall_memberValue_ok {type : SettingType} {members : List SettingId} :
    (∀ member ∈ members, ∃ value, memberValue p get providers type member = .ok value) ↔
      ∀ reading ∈ members.map (memberReading p get providers type), reading.error = none := by
  rw [List.forall_mem_map]
  refine forall₂_congr fun member _ => ?_
  simp [memberValue_eq_ok]

theorem toList_injective {α : Type*} {first second : Option α} (same : first.toList = second.toList) : first = second := by
  cases first <;> cases second <;> simp_all

/-- The members have a value in common when the readings do. -/
theorem forall_memberValue_eq {type : SettingType} {members : List SettingId}
    (all : ∀ reading ∈ members.map (memberReading p get providers type), reading.error = none) (value : Option Byte) :
    (∀ member ∈ members, memberValue p get providers type member = .ok value.toList) ↔
      ∀ reading ∈ members.map (memberReading p get providers type), reading.written = value := by
  rw [List.forall_mem_map] at all ⊢
  refine forall₂_congr fun member inMembers => ?_
  rw [memberValue_eq_ok]
  exact ⟨fun same => toList_injective same.2, fun same => ⟨all member inMembers, congrArg Option.toList same⟩⟩

/-- A value that was read through one byte is one byte or nothing. -/
theorem exists_toList {type : SettingType} {members : List SettingId} (nonempty : members ≠ []) {own : List Byte}
    (same : ∀ member ∈ members, memberValue p get providers type member = .ok own) :
    ∃ value : Option Byte, value.toList = own := by
  obtain ⟨member, inMembers⟩ := List.exists_mem_of_ne_nil members nonempty
  exact ⟨_, (memberValue_eq_ok.mp (same member inMembers)).2⟩

theorem commonReport_iff {type : SettingType} {members : List SettingId} (nonempty : members ≠ [])
    (scanned : Option Nat × Byte) :
    CommonReport (memberValue p get providers type) members (groupOutcome (observed scanned)) ↔
      Faithful enableInconsistent (members.map (memberReading p get providers type)) scanned := by
  constructor
  · intro report
    have succeeds := (groupOutcome_observed_status scanned).symm.trans (report.succeeds.trans forall_memberValue_ok)
    refine ⟨succeeds, fun all value same => ?_, fun all differ => ?_⟩
    · have written := report.common value.toList ((forall_memberValue_eq all value).mpr same)
      rw [groupOutcome_observed_written (succeeds.mpr all)] at written
      have same : value.toList = (some scanned.2).toList := written.symm
      exact toList_injective same
    · have apart : ¬ ∃ own, ∀ member ∈ members, memberValue p get providers type member = .ok own := by
        rintro ⟨own, same⟩
        obtain ⟨value, rfl⟩ := exists_toList nonempty same
        exact differ ⟨value, (forall_memberValue_eq all value).mp same⟩
      have written := report.inconsistent (forall_memberValue_ok.mpr all) apart
      rw [groupOutcome_observed_written (succeeds.mpr all)] at written
      exact (List.cons.inj written).1
  · intro faithful
    refine ⟨(groupOutcome_observed_status scanned).trans (faithful.succeeds.trans forall_memberValue_ok.symm),
      fun own same => ?_, fun values apart => ?_⟩
    · have all := forall_memberValue_ok.mp fun member inMembers => ⟨own, same member inMembers⟩
      obtain ⟨value, rfl⟩ := exists_toList nonempty same
      rw [groupOutcome_observed_written (faithful.succeeds.mpr all),
        faithful.common all value ((forall_memberValue_eq all value).mp same)]
      rfl
    · have all := forall_memberValue_ok.mp values
      rw [groupOutcome_observed_written (faithful.succeeds.mpr all), faithful.differing all]
      rintro ⟨value, same⟩
      exact apart ⟨value.toList, (forall_memberValue_eq all value).mpr same⟩

/-! ### Orders of the members -/

def withMembers (providers : Providers) (id : SettingId) (members : List SettingId) : Providers :=
  { providers with
    groups := FirstMatch.modifyFirst (fun group => sameSettingId group.groupId id)
      (fun group => { group with members := members }) providers.groups }

theorem findGroup_withMembers {id : SettingId} {group : Group} (found : findGroup providers.groups id = some group)
    (members : List SettingId) :
    findGroup (providers.withMembers id members).groups id = some { group with members := members } := by
  rw [findGroup] at found
  simp only [withMembers, findGroup]
  have first : ∀ change : Group → Group, (∀ group, (change group).groupId = group.groupId) →
      (FirstMatch.modifyFirst (fun group => sameSettingId group.groupId id) change providers.groups).find?
        (fun group => sameSettingId group.groupId id) = some (change group) := by
    intro change stays
    rw [FirstMatch.find?_modifyFirst (fun group => by rw [stays]), found]
    rfl
  exact first _ fun _ => rfl

theorem accessGetMember_list {other : Providers} (same : other.list = providers.list) (type : SettingType)
    (id : SettingId) :
    accessGetMember p get none other type id 1 none = accessGetMember p get none providers type id 1 none := by
  simp only [accessGetMember, findProviderById, same]
  rfl

theorem memberReading_list {other : Providers} (same : other.list = providers.list) (type : SettingType) :
    memberReading p get other type = memberReading p get providers type := by
  funext id
  rw [memberReading, memberReading, accessGetMember_list same]

theorem reportsCommonValue_iff_reliable {id : SettingId} {group : Group} {size : Nat}
    (noProvider : providers.findProviderById p id = none) (found : findGroup providers.groups id = some group)
    (nonempty : group.members ≠ []) (room : 0 < size) (type : SettingType) (flags : Option SettingFlags) :
    ReportsCommonValue p get req providers id type size flags group.members ↔
      Reliable enableInconsistent (group.members.map (memberReading p get providers type)) := by
  have outcome := fun localValue => accessGet_group p get req noProvider found room localValue type flags
  have otherOutcome : ∀ (other : Providers) (otherGroup : Group), other.list = providers.list →
      findGroup other.groups id = some otherGroup → ∀ localValue,
      (internalSystemSettingAccessGet p get req localValue other id type size flags).seen =
        membersOutcome p get providers type otherGroup.members localValue := by
    intro other otherGroup list otherFound localValue
    have noProvider : other.findProviderById p id = none := by
      simpa only [findProviderById, list] using noProvider
    have outcome := accessGet_group p get req noProvider otherFound room localValue type flags
    rwa [membersOutcome, memberReading_list list] at outcome
  constructor
  · intro reports
    refine ⟨fun cell => ?_, fun other order cell otherCell => ?_⟩
    · have report := reports.reports cell
      rw [outcome cell] at report
      exact (commonReport_iff nonempty _).mp report
    · -- an order of the readings is one of the members, and so of the registrations
      obtain ⟨members, rfl, arranged⟩ := perm_map_iff.mp order
      have changed := findGroup_withMembers found members
      have same := reports.orderless (providers.withMembers id members) ⟨rfl, group, _, found, changed, arranged⟩ cell otherCell
      rw [outcome cell, otherOutcome (providers.withMembers id members) _ rfl changed] at same
      exact groupOutcome_injective same
  · intro reliable
    refine ⟨fun localValue => ?_, fun other same localValue otherLocal => ?_⟩
    · rw [outcome localValue]
      exact (commonReport_iff nonempty _).mpr (reliable.faithful localValue)
    · obtain ⟨_, otherGroup, isGroup, otherFound, order⟩ := same.members
      cases found.symm.trans isGroup
      rw [outcome localValue, otherOutcome other otherGroup same.list otherFound]
      exact congrArg groupOutcome (reliable.orderless _ (order.map _) localValue otherLocal)

/-- Reading a group reports the common value, in every order and whatever the stack holds, exactly for settled
readings: all members have one value, or two have different values besides `ENABLE_INCONSISTENT`, or some have that value
and the others none; where some fail, they fail alike and the others have one value. -/
theorem reportsCommonValue_iff {id : SettingId} {group : Group} {size : Nat}
    (noProvider : providers.findProviderById p id = none) (found : findGroup providers.groups id = some group)
    (nonempty : group.members ≠ []) (room : 0 < size) (type : SettingType) (flags : Option SettingFlags) :
    ReportsCommonValue p get req providers id type size flags group.members ↔
      Settled enableInconsistent (group.members.map (memberReading p get providers type)) := by
  rw [reportsCommonValue_iff_reliable noProvider found nonempty room]
  refine reliable_iff_settled (fun first second => ?_) (by simpa using nonempty)
  by_cases zero : (0 : Byte) ≠ first ∧ (0 : Byte) ≠ second
  · exact ⟨0, zero⟩
  · by_cases one : (1 : Byte) ≠ first ∧ (1 : Byte) ≠ second
    · exact ⟨1, one⟩
    · refine ⟨2, ?_⟩
      constructor <;> rintro rfl <;> grind

end

/-! Three cameras, of which the first two have the values of a list, and the third has none and cannot be read. -/

def irCameraId : SettingId := .ofString "Device.IRCamera.Enable"

def threeCameras (front rear ir : List Byte) : Providers :=
  registered {} [⟨allCamerasId, [frontCameraId, rearCameraId, irCameraId], allCamerasId_short, by decide +kernel⟩]
    [⟨frontCameraId, .enable, 0, front⟩, ⟨rearCameraId, .enable, 0, rear⟩, ⟨irCameraId, .enable, 0, ir⟩]

def getKept : GetSettingValue where
  answer := fun _ value size =>
    if value = [] then ⟨.deviceError, size, []⟩
    else if size < value.length then ⟨.bufferTooSmall, value.length, []⟩
    else ⟨.success, value.length, value⟩
  fits := by
    intro _ value size
    split
    · exact Nat.zero_le size
    · split
      · exact Nat.zero_le size
      · rename_i fits
        exact Nat.le_of_not_lt fits
  sized := by
    intro _ value size succeeds
    split at succeeds
    · cases succeeds
    · split at succeeds
      · cases succeeds
      · rename_i nonempty fits
        rw [if_neg nonempty, if_neg fits]

theorem reportsCommonValue_enabled :
    ReportsCommonValue {} getKept none (threeCameras [1] [1] [1]) allCamerasId .enable 1 none
      [frontCameraId, rearCameraId, irCameraId] := by
  have found : findGroup (threeCameras [1] [1] [1]).groups allCamerasId =
      some ⟨allCamerasId, [frontCameraId, rearCameraId, irCameraId]⟩ := by
    decide +kernel
  refine (reportsCommonValue_iff (by decide +kernel) found (by decide) (by decide) .enable none).mpr (.same 1 ?_)
  decide +kernel

/-- The first two cameras differ, so the loop ends before the third, which fails, is read. -/
theorem unreadable_member_reported :
    ¬ ReportsCommonValue {} getKept none (threeCameras [0] [1] []) allCamerasId .enable 1 none
      [frontCameraId, rearCameraId, irCameraId] := by
  intro reports
  have succeeds : (internalSystemSettingAccessGet {} getKept none 0 (threeCameras [0] [1] []) allCamerasId .enable 1
      none).seen.1 = .success := by
    decide +kernel
  obtain ⟨own, isOwn⟩ := (reports.reports 0).succeeds.mp succeeds irCameraId (by decide)
  have fails : memberValue {} getKept (threeCameras [0] [1] []) .enable irCameraId = .error .deviceError := by
    decide +kernel
  rw [fails] at isOwn
  cases isOwn

end Providers

end Dfci
