import Dfci.Settings.Groups
import Dfci.Settings.Reboot

/-! # Setting a group and setting its members

The members of a group share the flags of the caller. A provider that has the value already adds a flag to them, which
also keeps the members after it from announcing that they changed; the password overwrites them. -/

namespace Dfci

namespace ProviderServices

/-! ## What the providers do with the flags -/

inductive Plain (current : List Byte) (answer : SettingFlags → Answer) : Prop where
  | fails (code : Nat) (is : ∀ flags, answer flags = (.error code, flags, current))
  | already (is : ∀ flags, answer flags = alreadySet flags current)
  | stores (kept : List Byte) (changed : kept ≠ current) (is : ∀ flags, answer flags = (.success, flags, kept))

section

variable (svc : ProviderServices)

theorem readVariable_error {setting : OwnSetting} {current : List Byte} {size : Nat} {status : EfiStatus}
    (fails : svc.readVariable setting current size = .error status) : ∃ code, status = .error code := by
  rw [readVariable] at fails
  split at fails
  · exact ⟨_, (Except.error.inj fails).symm⟩
  · split at fails
    · exact ⟨_, (Except.error.inj fails).symm⟩
    · split at fails
      · exact ⟨_, (Except.error.inj fails).symm⟩
      · cases fails

theorem readVariable_ok {setting : OwnSetting} {current value : List Byte} {size : Nat}
    (reads : svc.readVariable setting current size = .ok value) :
    value = current ∧ current ≠ [] ∧ current.length ≤ size := by
  rw [readVariable] at reads
  split at reads
  · cases reads
  · rename_i present
    split at reads
    · cases reads
    · split at reads
      · cases reads
      · rename_i room
        exact ⟨(Except.ok.inj reads).symm, present, Nat.not_lt.mp room⟩

theorem plain_storeVariable (setting : OwnSetting) {new current : List Byte} (differ : new ≠ current) :
    Plain current fun flags => svc.storeVariable setting flags new current := by
  have something : ¬ (new = [] ∧ current = []) := fun both => differ (both.1.trans both.2.symm)
  cases written : svc.setVariable setting new with
  | error code =>
    refine .fails code fun flags => ?_
    rw [storeVariable, if_neg something, written]
  | success =>
    refine .stores new differ fun flags => ?_
    rw [storeVariable, if_neg something, written]

def FindsVariables : Prop :=
  ∀ setting, svc.getVariable setting ≠ .notFound

variable {svc}

section

variable (finds : svc.FindsVariables)
include finds

/-- The size that is asked for is that of the variable, or of the default. -/
theorem currentSize_cases (setting : OwnSetting) (current : List Byte) :
    (∃ code, svc.currentSize setting current = .error (.error code)) ∨
      (current = [] ∧ svc.currentSize setting current = .ok (if setting.type = .cert then 0 else 1)) ∨
      (current ≠ [] ∧ svc.currentSize setting current = .ok current.length) := by
  by_cases absent : current = []
  · exact .inr (.inl ⟨absent, by simp [currentSize, readVariable, absent]⟩)
  · have some : 0 < current.length := List.length_pos_of_ne_nil absent
    cases got : svc.getVariable setting with
    | success => exact .inr (.inr ⟨absent, by simp [currentSize, readVariable, absent, got, some]⟩)
    | error code =>
      have notNotFound : code ≠ 14 := fun same => finds setting (got.trans (congrArg EfiStatus.error same))
      by_cases small : code = 5
      · exact .inr (.inr ⟨absent, by simp [currentSize, readVariable, absent, got, small]⟩)
      · exact .inl ⟨code, by simp [currentSize, readVariable, absent, got, small, notNotFound]⟩

/-- Where the value is written, it differs from what the variable holds. -/
theorem plain_setUnlessSame (setting : OwnSetting) (new current : List Byte) :
    Plain current fun flags => svc.setUnlessSame setting flags new current := by
  rcases currentSize_cases finds setting current with ⟨code, size⟩ | ⟨absent, size⟩ | ⟨present, size⟩
  · exact .fails code fun flags => by simp [setUnlessSame, size]
  · -- nothing is there: only the default has the size that is asked for, and it cannot be read
    subst absent
    by_cases nothing : new = []
    · by_cases cert : setting.type = .cert
      · exact .already fun flags => by simp [setUnlessSame, size, nothing, cert]
      · exact .fails 14 fun flags => by simp [setUnlessSame, size, nothing, cert, storeVariable]
    · by_cases sameSize : (if setting.type = .cert then 0 else 1) = new.length
      · refine .fails 14 fun flags => ?_
        simp only [setUnlessSame, size]
        rw [if_neg fun both => nothing both.2, if_pos ⟨nothing, sameSize⟩]
        rfl
      · have stored : ∀ flags, svc.setUnlessSame setting flags new [] =
            svc.storeVariable setting flags new [] := by
          intro flags
          simp only [setUnlessSame, size]
          rw [if_neg fun both => nothing both.2, if_neg fun both => sameSize both.2]
        simp only [stored]
        exact svc.plain_storeVariable setting nothing
  · have some : current.length ≠ 0 := fun none => present (List.eq_nil_of_length_eq_zero none)
    by_cases sameSize : new ≠ [] ∧ current.length = new.length
    · cases read : svc.readVariable setting current current.length with
      | error status =>
        obtain ⟨code, rfl⟩ := svc.readVariable_error read
        refine .fails code fun flags => ?_
        simp only [setUnlessSame, size, read]
        rw [if_neg fun both => some both.1, if_pos sameSize]
      | ok value =>
        obtain ⟨rfl, _⟩ := svc.readVariable_ok read
        have compared : ∀ flags, svc.setUnlessSame setting flags new value =
            if value = new then alreadySet flags value else svc.storeVariable setting flags new value := by
          intro flags
          simp only [setUnlessSame, size, read]
          rw [if_neg fun both => some both.1, if_pos sameSize]
        simp only [compared]
        by_cases same : value = new
        · exact .already fun flags => if_pos same
        · simp only [if_neg same]
          exact svc.plain_storeVariable setting (Ne.symm same)
    · have stored : ∀ flags, svc.setUnlessSame setting flags new current =
          svc.storeVariable setting flags new current := by
        intro flags
        simp only [setUnlessSame, size]
        rw [if_neg fun both => some both.1, if_neg sameSize]
      simp only [stored]
      refine svc.plain_storeVariable setting fun same => sameSize ?_
      rw [same]
      exact ⟨present, rfl⟩

theorem plain_dfciSettingsSet (setting : OwnSetting) (new current : List Byte) :
    Plain current fun flags => svc.dfciSettingsSet setting flags new current := by
  by_cases long : settingMaximumSize < new.length
  · exact .fails 2 fun _ => if_pos long
  · simp only [dfciSettingsSet, if_neg long]
    exact plain_setUnlessSame finds setting new current

theorem plain_dfciWpbtSettingSet (new current : List Byte) :
    Plain current fun flags => svc.dfciWpbtSettingSet flags new current := by
  by_cases sized : new.length ≠ 1
  · exact .fails 2 fun _ => if_pos sized
  · simp only [dfciWpbtSettingSet, if_neg sized]
    cases got : svc.dfciWpbtSettingGet current with
    | error status =>
      rw [dfciWpbtSettingGet] at got
      split at got
      · rename_i read
        obtain ⟨code, rfl⟩ := svc.readVariable_error read
        split at got
        · cases got
        · cases got
          exact .fails code fun _ => rfl
      · cases got
    | ok value =>
      by_cases same : value = new
      · exact .already fun _ => if_pos same
      · simp only [if_neg same]
        refine svc.plain_storeVariable .wpbt fun isCurrent => ?_
        -- a variable of one byte is read, and an absent one is no byte
        rw [dfciWpbtSettingGet] at got
        split at got
        · rename_i status read
          split at got
          · rename_i notFound
            rw [notFound, readVariable] at read
            have some : current ≠ [] := fun none => by simp [isCurrent, none] at sized
            rw [if_neg some] at read
            split at read
            · rename_i code fails
              exact finds .wpbt (fails.trans (Except.error.inj read))
            · split at read <;> cases read
          · cases got
        · rename_i read
          cases got
          exact same ((svc.readVariable_ok read).1.trans isCurrent.symm)

/-- All providers but the password's are plain. -/
theorem plain_set {setting : OwnSetting} (other : setting ≠ .password) (new current : List Byte) :
    Plain current fun flags => svc.set setting flags new current := by
  cases setting with
  | password => exact absurd rfl other
  | wpbt => exact plain_dfciWpbtSettingSet finds new current
  | virtualization =>
    cases new with
    | nil => exact .fails 2 fun _ => rfl
    | cons newValue rest =>
      by_cases enabled : newValue ≠ 1
      · exact .fails 3 fun _ => if_pos enabled
      · exact .already fun _ => if_neg enabled
  | sample =>
    by_cases long : settingMaximumSize < new.length
    · exact .fails 2 fun _ => if_pos long
    · simp only [set, dfciSampleProviderSet, if_neg long]
      cases new with
      | nil => exact .fails 2 fun _ => rfl
      | cons newValue rest =>
        by_cases same : [newValue] = current
        · exact .already fun _ => if_pos same
        · exact .stores [newValue] same fun _ => if_neg same
  | assetTag =>
    simp only [set, dfciAssetTagSettingSet]
    cases svc.validateAssetTagValue new with
    | error code => exact .fails code fun _ => rfl
    | success => exact plain_setUnlessSame finds .assetTag new current
  | recoveryUrl | bootstrapUrl | httpsCert | registrationId | tenantId | friendlyName | tenantName =>
    exact plain_dfciSettingsSet finds _ new current

end

end

end ProviderServices

/-! ## One value for several settings -/

inductive NewValue where
  | bytes (type : SettingType) (value : List Byte)
  | text (value : AsciiString)

namespace SetCall

variable (p : Platform) (call : SetCall)

def answer : ProviderServices.Answer :=
  p.setSettingValue call.provider.id call.flags call.value call.provider.value

/-- `DfciSettingChangedNotification` follows the call, which succeeded and did not report that the value was there. -/
def notifies : Bool :=
  (call.answer p).1 = .success ∧ (call.answer p).2.1 &&& SettingFlags.outAlreadySet = 0

def reportsSame : Bool :=
  (call.answer p).1 = .success ∧ (call.answer p).2.1 &&& SettingFlags.outAlreadySet ≠ 0

def changes : Bool :=
  call.kept p ≠ call.provider.value

def reboots : Bool :=
  (call.answer p).2.1.rebootRequired

end SetCall

namespace Providers

section

variable (p : Platform) (req : WriteRequest) (new : NewValue)

def set (providers : Providers) (id : SettingId) (flags : SettingFlags) : SettingSet :=
  match new with
  | .bytes type value => internalSystemSettingAccessSet p req providers id type value flags
  | .text value => setSettingFromAscii p req providers id value flags

def setCalls (providers : Providers) (id : SettingId) (flags : SettingFlags) : List SetCall :=
  match new with
  | .bytes type value => internalSystemSettingAccessSetCalls p req providers id type value flags
  | .text value => setSettingFromAsciiCalls p req providers id value flags

def setEach : List SettingId → Providers → List SettingSet
  | [], _ => []
  | id :: ids, providers =>
    let done := set p req new providers id 0
    done :: setEach ids done.providers

def setEachCalls : List SettingId → Providers → List SetCall
  | [], _ => []
  | id :: ids, providers =>
    setCalls p req new providers id 0 ++
      setEachCalls ids (set p req new providers id 0).providers

structure SetsLikeMembers (providers : Providers) (id : SettingId) (members : List SettingId) : Prop where
  values : (set p req new providers id 0).providers =
    ((setEach p req new members providers).map SettingSet.providers).getLastD providers
  notifies : (setCalls p req new providers id 0).map (fun call => (call.provider.id, call.notifies p)) =
    (setEachCalls p req new members providers).map fun call => (call.provider.id, call.changes p)
  reboots : (set p req new providers id 0).flags.rebootRequired = true ↔
    ∃ done ∈ setEach p req new members providers, done.flags.rebootRequired = true
  fails : (set p req new providers id 0).status.isError = true ↔
    ∃ done ∈ setEach p req new members providers, done.status.isError = true

def memberCalls : List SettingId → SettingFlags → Providers → List SetCall
  | [], _, _ => []
  | id :: ids, flags, providers =>
    setCalls p req new providers id flags ++
      memberCalls ids (set p req new providers id flags).flags
        (set p req new providers id flags).providers

def afterAnswer (providers : Providers) (provider : SettingProvider) (id : SettingId) (value : List Byte) :
    ProviderServices.Answer → SettingSet
  | (.error code, flags, kept) => ⟨.error code, flags, providers.setValue provider kept⟩
  | (.success, flags, kept) =>
    ⟨if flags &&& SettingFlags.outAlreadySet = 0 then p.settingChangedNotification id value flags else .success,
      flags, providers.setValue provider kept⟩

inductive MemberSet (providers : Providers) (provider : SettingProvider) (done : SettingFlags → SettingSet)
    (calls : SettingFlags → List SetCall) : Prop where
  | refused (status : EfiStatus) (is : ∀ flags, done flags = ⟨status, flags, providers⟩) (none : ∀ flags, calls flags = [])
  | called (id : SettingId) (value : List Byte)
      (is : ∀ flags, done flags = afterAnswer p providers provider id value
        (p.setSettingValue provider.id flags value provider.value))
      (one : ∀ flags, calls flags = [⟨req, provider, value, flags⟩])

def Resolved (type : SettingType) (ids : List SettingId) (providers : Providers) : Prop :=
  ∀ id ∈ ids, ∃ provider, providers.findProviderById p id = some provider ∧ provider.type = type

end

section

variable {p : Platform} {req : WriteRequest} {new : NewValue} {providers : Providers}

theorem accessSetProvider_cases (provider : SettingProvider) (id : SettingId) (type : SettingType) (value : List Byte) :
    MemberSet p req providers provider (fun flags => accessSetProvider p req providers provider id type value flags)
      (fun flags => accessSetProviderCalls req providers provider id type value flags) := by
  simp only [accessSetProvider, accessSetProviderCalls]
  cases permission : req.hasWritePermissions providers.groups id with
  | error status => exact .refused status (fun _ => rfl) fun _ => by simp
  | ok permitted =>
    cases permitted with
    | false => exact .refused .accessDenied (fun _ => rfl) fun _ => by simp
    | true =>
      by_cases same : type = provider.type
      · refine .called id value (fun flags => ?_) fun flags => by simp [same]
        rw [if_neg (not_not_intro same)]
        generalize p.setSettingValue provider.id flags value provider.value = answer
        obtain ⟨status, after, kept⟩ := answer
        cases status <;> rfl
      · exact .refused .invalidParameter (fun _ => if_pos same) fun _ => by simp [same]

section

variable {svc : ProviderServices} (own : Own p svc providers) {id : SettingId}
  {provider : SettingProvider} (found : providers.findProviderById p id = some provider)
include own found

theorem chars_ne_nil_of_own : id.chars ≠ [] := by
  intro empty
  have notNumber : id.startsWithDigit = false := by simp [AsciiString.startsWithDigit, empty]
  rw [findProviderById, notNumber] at found
  have matches' := List.find?_some found
  obtain ⟨setting, isId, _⟩ := own.setting (List.mem_of_find?_eq_some found)
  rw [isId, sameSettingId, empty] at matches'
  cases setting <;> revert matches' <;> decide +kernel

/-- Setting a single setting, in either way. -/
theorem set_cases : MemberSet p req providers provider (set p req new providers id)
      (setCalls p req new providers id) := by
  cases new with
  | bytes type value =>
    have isSet : set p req (.bytes type value) providers id =
        fun flags => accessSetProvider p req providers provider id type value flags := by
      funext flags
      simp only [set, internalSystemSettingAccessSet, found]
    have isCalls : setCalls p req (.bytes type value) providers id =
        fun flags => accessSetProviderCalls req providers provider id type value flags := by
      funext flags
      simp only [setCalls, internalSystemSettingAccessSetCalls, found]
    rw [isSet, isCalls]
    exact accessSetProvider_cases provider id type value
  | text value =>
    have isSet : set p req (.text value) providers id =
        setIndividualSettings p req providers provider value := by
      funext flags
      simp only [set, setSettingFromAscii, found, if_neg (chars_ne_nil_of_own own found)]
    have isCalls : setCalls p req (.text value) providers id =
        setIndividualSettingsCalls p req providers provider value := by
      funext flags
      simp only [setCalls, setSettingFromAsciiCalls, found, if_neg (chars_ne_nil_of_own own found)]
    rw [isSet, isCalls]
    by_cases empty : provider.type ≠ .string ∧ provider.type ≠ .cert ∧ value.chars = []
    · exact .refused .unsupported (fun _ => if_pos empty) fun _ => if_pos empty
    · cases converted : valueFromAscii p provider.type value with
      | error status =>
        refine .refused status (fun _ => ?_) fun _ => ?_
        · rw [setIndividualSettings, if_neg empty, converted]
        · rw [setIndividualSettingsCalls, if_neg empty, converted]
      | ok bytes =>
        -- the provider is looked up once more, by its own id
        have again := findProviderById_again found
        have isSet : setIndividualSettings p req providers provider value =
            fun flags => accessSetProvider p req providers provider provider.id provider.type bytes flags := by
          funext flags
          simp only [setIndividualSettings, if_neg empty, converted, internalSystemSettingAccessSet, again]
        have isCalls : setIndividualSettingsCalls p req providers provider value =
            fun flags => accessSetProviderCalls req providers provider provider.id provider.type bytes flags := by
          funext flags
          simp only [setIndividualSettingsCalls, if_neg empty, converted, internalSystemSettingAccessSetCalls, again]
        rw [isSet, isCalls]
        exact accessSetProvider_cases provider provider.id provider.type bytes

end

theorem set_replay (id : SettingId) (flags : SettingFlags) : (set p req new providers id flags).providers =
      providers.replay p (setCalls p req new providers id flags) := by
  cases new with
  | bytes type value => exact internalSystemSettingAccessSet_replay ..
  | text value => exact setSettingFromAscii_replay ..

/-! ### What a call leaves as it was -/

theorem Own.set {svc : ProviderServices} (own : Own p svc providers) (id : SettingId)
    (flags : SettingFlags) : Own p svc (set p req new providers id flags).providers := by
  rw [set_replay]
  exact own.congr (registrations_replay ..)

theorem Resolved.set {type : SettingType} {ids : List SettingId} (resolved : Resolved p type ids providers)
    (id : SettingId) (flags : SettingFlags) : Resolved p type ids (set p req new providers id flags).providers := by
  intro other mem
  obtain ⟨provider, found, isType⟩ := resolved other mem
  have keys := (replay_same p providers (setCalls p req new providers id flags)).1
  have same := findProviderById_keys p keys other
  rw [← set_replay, found] at same
  obtain ⟨after, isAfter, key⟩ := Option.map_eq_some_iff.mp same
  exact ⟨after, isAfter, (Prod.ext_iff.mp key).2.trans isType⟩

theorem accessSetMembers_eq {type : SettingType} {ids : List SettingId} (resolved : Resolved p type ids providers)
    (asked : SettingType) (value : List Byte) (status : EfiStatus) (flags : SettingFlags) :
    forMembers (fun providers id flags => accessSetMember p req providers id asked value flags) ids status flags
        providers = forMembers (set p req (.bytes asked value)) ids status flags providers ∧
      accessSetMembersCalls p req asked value ids flags providers =
        memberCalls p req (.bytes asked value) ids flags providers := by
  induction ids generalizing status flags providers with
  | nil => exact ⟨rfl, rfl⟩
  | cons id ids ih =>
    obtain ⟨⟨provider, found, _⟩, others⟩ := List.forall_mem_cons.mp resolved
    have rest : Resolved p type ids (set p req (.bytes asked value) providers id flags).providers :=
      Resolved.set others id flags
    have one : accessSetMember p req providers id asked value flags =
        set p req (.bytes asked value) providers id flags := by
      simp only [accessSetMember, set, internalSystemSettingAccessSet, found]
    have oneCalls : accessSetMemberCalls p req providers id asked value flags =
        setCalls p req (.bytes asked value) providers id flags := by
      simp only [accessSetMemberCalls, setCalls, internalSystemSettingAccessSetCalls, found]
    simp only [forMembers, accessSetMembersCalls, memberCalls, one, oneCalls]
    exact ⟨(ih rest _ _).1, congrArg _ (ih rest status _).2⟩

theorem setMembersFromAscii_eq {svc : ProviderServices} (own : Own p svc providers) {type : SettingType}
    {ids : List SettingId} (resolved : Resolved p type ids providers) (value : AsciiString) (status : EfiStatus)
    (flags : SettingFlags) : setMembersFromAscii p req value ids status flags providers =
        forMembers (set p req (.text value)) ids status flags providers ∧
      setMembersFromAsciiCalls p req value ids flags providers =
        memberCalls p req (.text value) ids flags providers := by
  induction ids generalizing status flags providers with
  | nil => exact ⟨rfl, rfl⟩
  | cons id ids ih =>
    obtain ⟨⟨provider, found, _⟩, others⟩ := List.forall_mem_cons.mp resolved
    have rest : Resolved p type ids (set p req (.text value) providers id flags).providers :=
      Resolved.set others id flags
    have named := chars_ne_nil_of_own own found
    have one : setIndividualSettings p req providers provider value flags =
        set p req (.text value) providers id flags := by
      simp only [set, setSettingFromAscii, found, if_neg named]
    have oneCalls : setIndividualSettingsCalls p req providers provider value flags =
        setCalls p req (.text value) providers id flags := by
      simp only [setCalls, setSettingFromAsciiCalls, found, if_neg named]
    simp only [forMembers, setMembersFromAscii, setMembersFromAsciiCalls, memberCalls, found, one, oneCalls]
    exact ⟨(ih (own.set id flags) rest _ _).1, congrArg _ (ih (own.set id flags) rest status _).2⟩

/-- The loop over the members of a group, in either way. -/
theorem set_group {svc : ProviderServices} (own : Own p svc providers) {id : SettingId} {group : Group}
    (named : id.chars ≠ []) (noProvider : providers.findProviderById p id = none)
    (found : findGroup providers.groups id = some group) {type : SettingType}
    (resolved : Resolved p type group.members providers) (flags : SettingFlags) : set p req new providers id flags =
        forMembers (set p req new) group.members .success flags providers ∧ setCalls p req new providers id flags =
        memberCalls p req new group.members flags providers := by
  cases new with
  | bytes asked value =>
    rw [set, setCalls, internalSystemSettingAccessSet, internalSystemSettingAccessSetCalls, noProvider, found]
    exact accessSetMembers_eq resolved asked value .success flags
  | text value =>
    rw [set, setCalls, setSettingFromAscii, setSettingFromAsciiCalls, if_neg named, if_neg named, noProvider, found]
    exact setMembersFromAscii_eq own resolved value .success flags

/-! ### Members that add to the flags -/

inductive PlainSet (p : Platform) (req : WriteRequest) (providers : Providers) (done : SettingFlags → SettingSet)
    (calls : SettingFlags → List SetCall) : Prop where
  | refused (status : EfiStatus) (is : ∀ flags, done flags = ⟨status, flags, providers⟩) (none : ∀ flags, calls flags = [])
  | fails (provider : SettingProvider) (value : List Byte) (code : Nat)
      (is : ∀ flags, done flags = ⟨.error code, flags, providers⟩)
      (one : ∀ flags, calls flags = [⟨req, provider, value, flags⟩])
      (answers : ∀ flags, p.setSettingValue provider.id flags value provider.value =
        (.error code, flags, provider.value))
  | already (provider : SettingProvider) (value : List Byte)
      (is : ∀ flags, done flags = ⟨.success, flags ||| SettingFlags.outAlreadySet, providers⟩)
      (one : ∀ flags, calls flags = [⟨req, provider, value, flags⟩])
      (answers : ∀ flags, p.setSettingValue provider.id flags value provider.value =
        (.success, flags ||| SettingFlags.outAlreadySet, provider.value))
  | stores (provider : SettingProvider) (value kept : List Byte) (id : SettingId) (changed : kept ≠ provider.value)
      (is : ∀ flags, done flags = ⟨if flags &&& SettingFlags.outAlreadySet = 0 then
        p.settingChangedNotification id value flags else .success, flags, providers.setValue provider kept⟩)
      (one : ∀ flags, calls flags = [⟨req, provider, value, flags⟩])
      (answers : ∀ flags, p.setSettingValue provider.id flags value provider.value = (.success, flags, kept))

theorem or_outAlreadySet (flags : SettingFlags) :
    (flags ||| SettingFlags.outAlreadySet) &&& SettingFlags.outAlreadySet ≠ 0 := by
  have absorbs : (flags ||| SettingFlags.outAlreadySet) &&& SettingFlags.outAlreadySet = SettingFlags.outAlreadySet := by
    ext i
    simp only [BitVec.getElem_and, BitVec.getElem_or]
    grind
  rw [absorbs]
  decide

theorem set_plain {svc : ProviderServices} (own : Own p svc providers) (finds : svc.FindsVariables)
    {id : SettingId} {provider : SettingProvider} (found : providers.findProviderById p id = some provider)
    (other : provider.type ≠ .password) : PlainSet p req providers (set p req new providers id)
      (setCalls p req new providers id) := by
  have cases' : MemberSet p req providers provider (set p req new providers id)
      (setCalls p req new providers id) := set_cases own found
  cases cases' with
  | refused status is none => exact .refused status is none
  | called notified value is one =>
    obtain ⟨setting, isId, isType, _⟩ := own.setting (findProviderById_mem found)
    have notPassword : setting ≠ .password := fun isPassword => other (isType.trans (congrArg OwnSetting.type isPassword))
    have sets : ∀ flags, p.setSettingValue provider.id flags value provider.value =
        svc.set setting flags value provider.value := by
      intro flags
      rw [isId, own.sets]
    cases ProviderServices.plain_set finds notPassword value provider.value with
    | fails code answers =>
      refine .fails provider value code (fun flags => ?_) one fun flags => (sets flags).trans (answers flags)
      rw [is, sets, answers, afterAnswer, setValue_self found]
    | already answers =>
      refine .already provider value (fun flags => ?_) one fun flags => (sets flags).trans (answers flags)
      rw [is, sets, answers, ProviderServices.alreadySet, afterAnswer, setValue_self found, if_neg (or_outAlreadySet flags)]
    | stores kept changed answers =>
      refine .stores provider value kept notified changed (fun flags => ?_) one fun flags => (sets flags).trans (answers flags)
      rw [is, sets, answers, afterAnswer]

def seenFlags (seen : Bool) : SettingFlags :=
  if seen then SettingFlags.outAlreadySet else 0

def announced (p : Platform) : Bool → List SetCall → List (SettingId × Bool)
  | _, [] => []
  | seen, call :: calls =>
    (call.provider.id, call.changes p && !seen) :: announced p (seen || call.reportsSame p) calls

/-- No call that reports that it has the value comes before one that changes something. -/
def Unhidden (p : Platform) (calls : List SetCall) : Prop :=
  calls.Pairwise fun earlier later => ¬ (earlier.reportsSame p = true ∧ later.changes p = true)

omit req new providers in
theorem announced_eq_iff (seen : Bool) (calls : List SetCall) :
    announced p seen calls = calls.map (fun call => (call.provider.id, call.changes p)) ↔
      (seen = true → ∀ call ∈ calls, call.changes p = false) ∧ Unhidden p calls := by
  induction calls generalizing seen with
  | nil => simp [announced, Unhidden]
  | cons call calls ih =>
    have apart : Unhidden p (call :: calls) ↔
        (∀ later ∈ calls, ¬ (call.reportsSame p = true ∧ later.changes p = true)) ∧
          Unhidden p calls := List.pairwise_cons
    rw [announced, List.map_cons, List.cons.injEq, ih, apart]
    cases seen <;> cases same : call.reportsSame p <;> cases changed : call.changes p <;> simp [changed]

structure PlainRun (p : Platform) (req : WriteRequest) (new : NewValue) (providers : Providers)
    (ids : List SettingId) (seen : Bool) (status : EfiStatus) : Prop where
  values : (forMembers (set p req new) ids status (seenFlags seen) providers).providers =
    ((setEach p req new ids providers).map SettingSet.providers).getLastD providers
  flags : (forMembers (set p req new) ids status (seenFlags seen) providers).flags.rebootRequired = false
  eachFlags : ∀ done ∈ setEach p req new ids providers, done.flags.rebootRequired = false
  notices : (memberCalls p req new ids (seenFlags seen) providers).map
      (fun call => (call.provider.id, call.notifies p)) =
    announced p seen (setEachCalls p req new ids providers)
  fails : (seen = true → ∀ call ∈ setEachCalls p req new ids providers, call.changes p = false) →
    Unhidden p (setEachCalls p req new ids providers) →
    ((forMembers (set p req new) ids status (seenFlags seen) providers).status.isError = true ↔
      status.isError = true ∨ ∃ done ∈ setEach p req new ids providers, done.status.isError = true)
  told : ∀ call ∈ setEachCalls p req new ids providers,
    call.notifies p = true → call.changes p = true
  unasked : ∀ call ∈ setEachCalls p req new ids providers, call.reboots p = false

structure PlainStep (p : Platform) (req : WriteRequest) (new : NewValue) (providers : Providers)
    (id : SettingId) (seen next : Bool) : Prop where
  values : (set p req new providers id (seenFlags seen)).providers =
    (set p req new providers id 0).providers
  flags : (set p req new providers id (seenFlags seen)).flags = seenFlags next
  eachFlags : (set p req new providers id 0).flags.rebootRequired = false
  notices : ∀ rest, (setCalls p req new providers id (seenFlags seen)).map
      (fun call => (call.provider.id, call.notifies p)) ++ announced p next rest =
    announced p seen (setCalls p req new providers id 0 ++ rest)
  fails : (seen = true → ∀ call ∈ setCalls p req new providers id 0, call.changes p = false) →
    (set p req new providers id (seenFlags seen)).status =
      (set p req new providers id 0).status
  hidden : next = true → seen = true ∨
    ∃ call ∈ setCalls p req new providers id 0, call.reportsSame p = true
  told : ∀ call ∈ setCalls p req new providers id 0,
    call.notifies p = true → call.changes p = true
  unasked : ∀ call ∈ setCalls p req new providers id 0, call.reboots p = false

omit req new providers in
theorem seenFlags_or (seen : Bool) : seenFlags seen ||| SettingFlags.outAlreadySet = seenFlags true := by
  cases seen <;> rfl

/-- The flags of the loop are never those of a request for a reboot. -/
theorem seenFlags_rebootRequired (seen : Bool) : (seenFlags seen).rebootRequired = false := by
  cases seen <;> rfl

theorem PlainSet.step {id : SettingId} (plain : PlainSet p req providers (set p req new providers id)
    (setCalls p req new providers id)) (seen : Bool) : ∃ next, PlainStep p req new providers id seen next := by
  cases plain with
  | refused status is none =>
    refine ⟨seen, ?_⟩
    constructor
    case eachFlags =>
      rw [is]
      exact seenFlags_rebootRequired false
    case hidden => exact Or.inl
    all_goals simp [is, none]
  | fails provider value code is one answers =>
    have facts : ∀ flags, SetCall.notifies p ⟨req, provider, value, flags⟩ = false ∧
        SetCall.changes p ⟨req, provider, value, flags⟩ = false ∧
        SetCall.reportsSame p ⟨req, provider, value, flags⟩ = false := by
      intro flags
      simp [SetCall.notifies, SetCall.changes, SetCall.reportsSame, SetCall.kept, SetCall.answer, answers]
    refine ⟨seen, ?_⟩
    constructor
    case eachFlags =>
      rw [is]
      exact seenFlags_rebootRequired false
    case hidden => exact Or.inl
    case unasked =>
      simp only [one, List.forall_mem_singleton, SetCall.reboots, SetCall.answer, answers]
      exact seenFlags_rebootRequired false
    all_goals simp [is, one, announced, facts]
  | already provider value is one answers =>
    have facts : ∀ flags, SetCall.notifies p ⟨req, provider, value, flags⟩ = false ∧
        SetCall.changes p ⟨req, provider, value, flags⟩ = false ∧
        SetCall.reportsSame p ⟨req, provider, value, flags⟩ = true := by
      intro flags
      have marked := or_outAlreadySet flags
      simp only [SetCall.notifies, SetCall.changes, SetCall.reportsSame, SetCall.kept, SetCall.answer, answers]
      simpa using marked
    refine ⟨true, ?_⟩
    constructor
    case flags =>
      rw [is]
      exact seenFlags_or seen
    case eachFlags =>
      rw [is]
      exact seenFlags_rebootRequired true
    case unasked =>
      simp only [one, List.forall_mem_singleton, SetCall.reboots, SetCall.answer, answers]
      exact seenFlags_rebootRequired true
    all_goals simp [is, one, announced, facts]
  | stores provider value kept notified changed is one answers =>
    have marks : seenFlags seen &&& SettingFlags.outAlreadySet = 0 ↔ seen = false := by cases seen <;> decide
    have changes : ∀ flags, SetCall.changes p ⟨req, provider, value, flags⟩ = true := by
      intro flags
      simp only [SetCall.changes, SetCall.kept, answers]
      exact decide_eq_true changed
    have facts : SetCall.notifies p ⟨req, provider, value, seenFlags seen⟩ = !seen ∧
        SetCall.reportsSame p ⟨req, provider, value, 0#64⟩ = false := by
      simp only [SetCall.notifies, SetCall.reportsSame, SetCall.answer, answers, marks]
      simp
    refine ⟨seen, ?_⟩
    constructor
    case eachFlags =>
      rw [is]
      exact seenFlags_rebootRequired false
    case hidden => exact Or.inl
    case unasked =>
      simp only [one, List.forall_mem_singleton, SetCall.reboots, SetCall.answer, answers]
      exact seenFlags_rebootRequired false
    case fails =>
      intro unchanged
      -- the loop announces the change too, unless a member that came before has the value
      cases seen with
      | false => rfl
      | true =>
        have same := unchanged rfl _ (by rw [one]; exact List.mem_singleton_self _)
        rw [changes] at same
        cases same
    all_goals simp [is, one, announced, facts, changes]

theorem isError_last (done : SettingSet) (status : EfiStatus) :
    (if done.status.isError then done.status else status).isError = true ↔
      done.status.isError = true ∨ status.isError = true := by
  cases failed : done.status.isError <;> simp [failed]

theorem PlainRun.cons {id : SettingId} {ids : List SettingId} {seen next : Bool} {status : EfiStatus}
    (step : PlainStep p req new providers id seen next)
    (rest : ∀ status, PlainRun p req new (set p req new providers id 0).providers ids next status) :
    PlainRun p req new providers (id :: ids) seen status := by
  constructor
  case values =>
    rw [forMembers, step.flags, step.values, (rest _).values, setEach, List.map_cons, List.getLastD_cons]
  case flags =>
    rw [forMembers, step.flags, step.values]
    exact (rest _).flags
  case eachFlags => exact List.forall_mem_cons.mpr ⟨step.eachFlags, (rest status).eachFlags⟩
  case notices =>
    rw [memberCalls, step.flags, step.values, List.map_append, (rest status).notices, setEachCalls]
    exact step.notices _
  case fails =>
    intro unchanged unhidden
    rw [setEachCalls] at unchanged unhidden
    obtain ⟨_, restUnhidden, across⟩ := List.pairwise_append.mp unhidden
    have headSame := step.fails fun isSeen call mem => unchanged isSeen call (List.mem_append_left _ mem)
    have restUnchanged : next = true → ∀ call ∈ setEachCalls p req new ids
        (set p req new providers id 0).providers, call.changes p = false := by
      intro isNext call mem
      rcases step.hidden isNext with isSeen | ⟨earlier, isEarlier, same⟩
      · exact unchanged isSeen call (List.mem_append_right _ mem)
      · exact Bool.eq_false_iff.mpr fun changes => across earlier isEarlier call mem ⟨same, changes⟩
    rw [forMembers, step.flags, step.values, (rest _).fails restUnchanged restUnhidden, isError_last, headSame, setEach]
    simp only [List.mem_cons, exists_eq_or_imp]
    tauto
  case told => exact List.forall_mem_append.mpr ⟨step.told, (rest status).told⟩
  case unasked => exact List.forall_mem_append.mpr ⟨step.unasked, (rest status).unasked⟩

/-- A group of settings other than the password. -/
theorem plainRun {svc : ProviderServices} (own : Own p svc providers) (finds : svc.FindsVariables)
    {type : SettingType} (other : type ≠ .password) {ids : List SettingId}
    (resolved : Resolved p type ids providers) (seen : Bool) (status : EfiStatus) :
    PlainRun p req new providers ids seen status := by
  induction ids generalizing providers seen status with
  | nil =>
    constructor
    case flags => exact seenFlags_rebootRequired seen
    all_goals simp [forMembers, setEach, setEachCalls, memberCalls, announced]
  | cons id ids ih =>
    obtain ⟨⟨provider, found, isType⟩, others⟩ := List.forall_mem_cons.mp resolved
    have rest : Resolved p type ids (set p req new providers id 0).providers := Resolved.set others id 0
    have plain : PlainSet p req providers (set p req new providers id)
      (setCalls p req new providers id) := set_plain own finds found fun isPassword => other (isType ▸ isPassword)
    obtain ⟨next, step⟩ := plain.step seen
    exact .cons step fun status => ih (own.set id 0) rest next status

/-! ### Members that overwrite the flags -/

inductive PasswordSet (p : Platform) (req : WriteRequest) (providers : Providers)
    (done : SettingFlags → SettingSet) (calls : SettingFlags → List SetCall) : Prop where
  | refused (status : EfiStatus) (is : ∀ flags, done flags = ⟨status, flags, providers⟩) (none : ∀ flags, calls flags = [])
  | called (provider : SettingProvider) (value : List Byte) (answer : ProviderServices.Answer)
      (is : ∀ flags, done flags = done 0) (isFlags : (done 0).flags = answer.2.1)
      (one : ∀ flags, calls flags = [⟨req, provider, value, flags⟩])
      (answers : ∀ flags, p.setSettingValue provider.id flags value provider.value = answer)
      (unmarked : answer.2.1 &&& SettingFlags.outAlreadySet = 0)
      (kept : answer.1 ≠ .success → answer.2.2 = provider.value)

theorem set_password {svc : ProviderServices} (own : Own p svc providers) {id : SettingId}
    {provider : SettingProvider} (found : providers.findProviderById p id = some provider)
    (isPassword : provider.type = .password) : PasswordSet p req providers (set p req new providers id)
      (setCalls p req new providers id) := by
  have cases' : MemberSet p req providers provider (set p req new providers id)
      (setCalls p req new providers id) := set_cases own found
  cases cases' with
  | refused status is none => exact .refused status is none
  | called notified value is one =>
    obtain ⟨setting, isId, isType, _⟩ := own.setting (findProviderById_mem found)
    have password : setting = .password := by
      cases setting <;> first | rfl | exact absurd (isType.symm.trans isPassword) (by decide)
    have answers : ∀ flags, p.setSettingValue provider.id flags value provider.value =
        svc.passwordSet 0 value provider.value := by
      intro flags
      rw [isId, own.sets, password]
      rfl
    refine .called provider value (svc.passwordSet 0 value provider.value) (fun flags => ?_) ?_ one answers ?_ ?_
    · rw [is, is, answers, answers]
    · rw [is, answers]
      generalize svc.passwordSet 0 value provider.value = answer
      obtain ⟨status, flags, kept⟩ := answer
      cases status <;> rfl
    · rw [ProviderServices.passwordSet]
      split
      · exact (by decide : (0 : SettingFlags) &&& SettingFlags.outAlreadySet = 0)
      · exact (by decide : SettingFlags.outRebootRequired &&& SettingFlags.outAlreadySet = 0)
    · rw [ProviderServices.passwordSet]
      split
      · exact fun _ => rfl
      · exact fun fails => absurd rfl fails

structure PasswordRun (p : Platform) (req : WriteRequest) (new : NewValue) (providers : Providers)
    (ids : List SettingId) (flags : SettingFlags) (status : EfiStatus) : Prop where
  values : (forMembers (set p req new) ids status flags providers).providers =
    ((setEach p req new ids providers).map SettingSet.providers).getLastD providers
  notices : (memberCalls p req new ids flags providers).map
      (fun call => (call.provider.id, call.notifies p)) =
    (setEachCalls p req new ids providers).map fun call => (call.provider.id, call.notifies p)
  fails : (forMembers (set p req new) ids status flags providers).status.isError = true ↔
    status.isError = true ∨ ∃ done ∈ setEach p req new ids providers, done.status.isError = true
  reboots : (forMembers (set p req new) ids status flags providers).flags.rebootRequired =
    ((setEachCalls p req new ids providers).map (SetCall.reboots p)).getLastD flags.rebootRequired
  eachReboots : (∃ done ∈ setEach p req new ids providers, done.flags.rebootRequired = true) ↔
    ∃ call ∈ setEachCalls p req new ids providers, call.reboots p = true
  unmarked : ∀ call ∈ setEachCalls p req new ids providers, call.reportsSame p = false
  announced : ∀ call ∈ setEachCalls p req new ids providers,
    call.changes p = true → call.notifies p = true

structure PasswordStep (p : Platform) (req : WriteRequest) (new : NewValue) (providers : Providers)
    (id : SettingId) (flags : SettingFlags) : Prop where
  values : (set p req new providers id flags).providers = (set p req new providers id 0).providers
  status : (set p req new providers id flags).status = (set p req new providers id 0).status
  notices : (setCalls p req new providers id flags).map
      (fun call => (call.provider.id, call.notifies p)) =
    (setCalls p req new providers id 0).map fun call => (call.provider.id, call.notifies p)
  reboots : (set p req new providers id flags).flags.rebootRequired =
    ((setCalls p req new providers id 0).map (SetCall.reboots p)).getLastD flags.rebootRequired
  eachReboots : (set p req new providers id 0).flags.rebootRequired = true ↔
    ∃ call ∈ setCalls p req new providers id 0, call.reboots p = true
  unmarked : ∀ call ∈ setCalls p req new providers id 0, call.reportsSame p = false
  announced : ∀ call ∈ setCalls p req new providers id 0,
    call.changes p = true → call.notifies p = true

theorem PasswordSet.step {id : SettingId} (password : PasswordSet p req providers
    (set p req new providers id) (setCalls p req new providers id)) (flags : SettingFlags) :
    PasswordStep p req new providers id flags := by
  cases password with
  | refused status is none =>
    constructor
    case eachReboots =>
      simp only [is, none, List.not_mem_nil, false_and, exists_false, iff_false]
      decide
    all_goals simp [is, none]
  | called provider value answer is isFlags one answers unmarked kept =>
    have facts : ∀ flags, SetCall.answer p ⟨req, provider, value, flags⟩ = answer := answers
    constructor
    case announced =>
      simp only [one, List.forall_mem_singleton, SetCall.changes, SetCall.kept, SetCall.notifies, facts, answers,
        decide_eq_true_eq]
      intro changed
      exact ⟨by_contra fun fails => changed (kept fails), unmarked⟩
    case unmarked =>
      simp only [one, List.forall_mem_singleton, SetCall.reportsSame, facts, unmarked]
      simp
    case values => rw [is]
    case status => rw [is]
    case reboots => simp [is, one, isFlags, SetCall.reboots, facts]
    case eachReboots =>
      rw [isFlags]
      simp [one, SetCall.reboots, facts]
    case notices => simp [one, SetCall.notifies, facts]

theorem getLastD_append {α : Type*} (first second : List α) (default : α) :
    (first ++ second).getLastD default = second.getLastD (first.getLastD default) := by
  simp only [List.getLastD_eq_getLast?, List.getLast?_append]
  cases second.getLast? <;> rfl

/-- A group of passwords. -/
theorem passwordRun {svc : ProviderServices} (own : Own p svc providers) {ids : List SettingId}
    (resolved : Resolved p .password ids providers) (flags : SettingFlags) (status : EfiStatus) :
    PasswordRun p req new providers ids flags status := by
  induction ids generalizing providers flags status with
  | nil => constructor <;> simp [forMembers, setEach, setEachCalls, memberCalls]
  | cons id ids ih =>
    obtain ⟨⟨provider, found, isType⟩, others⟩ := List.forall_mem_cons.mp resolved
    have rest : Resolved p .password ids (set p req new providers id 0).providers :=
      Resolved.set others id 0
    have run := fun flags status => ih (own.set id 0) rest flags status
    have password : PasswordSet p req providers (set p req new providers id)
      (setCalls p req new providers id) := set_password own found isType
    have step := password.step flags
    constructor
    case values => rw [forMembers, step.values, (run _ _).values, setEach, List.map_cons, List.getLastD_cons]
    case notices =>
      rw [memberCalls, setEachCalls, List.map_append, List.map_append, step.values, step.notices, (run _ status).notices]
    case fails =>
      rw [forMembers, step.values, (run _ _).fails, isError_last, step.status, setEach]
      simp only [List.mem_cons, exists_eq_or_imp]
      tauto
    case reboots =>
      rw [forMembers, step.values, (run _ _).reboots, step.reboots, setEachCalls, List.map_append, getLastD_append]
    case eachReboots =>
      rw [setEach, setEachCalls]
      simp only [List.mem_cons, List.mem_append, or_and_right, exists_or, exists_eq_left, step.eachReboots,
        (run 0 status).eachReboots]
    case unmarked => exact List.forall_mem_append.mpr ⟨step.unmarked, (run 0 status).unmarked⟩
    case announced => exact List.forall_mem_append.mpr ⟨step.announced, (run 0 status).announced⟩

/-! ### Groups -/

/-- What the providers of a group answer when they are set one by one, for the group to do the same: no provider that
has the value comes before one that changes, what is announced is a change, and the last one asks for a reboot if any
does. -/
structure Announces (p : Platform) (calls : List SetCall) : Prop where
  unhidden : Unhidden p calls
  told : ∀ call ∈ calls, call.notifies p = true → call.changes p = true
  asked : (∃ call ∈ calls, call.reboots p = true) → (calls.map (SetCall.reboots p)).getLastD false = true

omit req new providers in
theorem notices_eq_iff {calls : List SetCall}
    (announced : ∀ call ∈ calls, call.changes p = true → call.notifies p = true) :
    calls.map (fun call => (call.provider.id, call.notifies p)) =
        calls.map (fun call => (call.provider.id, call.changes p)) ↔
      ∀ call ∈ calls, call.notifies p = true → call.changes p = true := by
  rw [List.map_inj_left]
  refine forall₂_congr fun call mem => ?_
  have implies := announced call mem
  cases notifies : call.notifies p <;> cases changes : call.changes p <;> simp_all

/-- Setting a group does what setting its members does, exactly when their providers announce it. -/
theorem setsLikeMembers_iff {svc : ProviderServices} (own : Own p svc providers)
    (finds : svc.FindsVariables) {id : SettingId} {group : Group} (named : id.chars ≠ [])
    (noProvider : providers.findProviderById p id = none) (found : findGroup providers.groups id = some group)
    {type : SettingType} (resolved : Resolved p type group.members providers) :
    SetsLikeMembers p req new providers id group.members ↔
      Announces p (setEachCalls p req new group.members providers) := by
  obtain ⟨isSet, isCalls⟩ : set p req new providers id 0 =
        forMembers (set p req new) group.members .success 0 providers ∧
      setCalls p req new providers id 0 =
        memberCalls p req new group.members 0 providers := set_group own named noProvider found resolved 0
  by_cases isPassword : type = .password
  · subst isPassword
    have run : PasswordRun p req new providers group.members 0 .success := passwordRun own resolved 0 .success
    constructor
    · rintro ⟨values, notifies, reboots, fails⟩
      rw [isCalls, run.notices, notices_eq_iff run.announced] at notifies
      refine ⟨List.pairwise_of_forall_mem_list fun earlier isEarlier _ _ both => ?_, notifies, fun asks => ?_⟩
      · rw [run.unmarked earlier isEarlier] at both
        cases both.1
      · rw [isSet, run.reboots, run.eachReboots] at reboots
        exact reboots.mpr asks
    · rintro ⟨_, told, asked⟩
      refine ⟨by rw [isSet, run.values], ?_, ?_, ?_⟩
      · rw [isCalls, run.notices, notices_eq_iff run.announced]
        exact told
      · rw [isSet, run.reboots, run.eachReboots]
        refine ⟨fun asks => ?_, asked⟩
        have isLast : true ∈ false :: (setEachCalls p req new group.members providers).map
            (SetCall.reboots p) := asks ▸ List.getLastD_mem_cons ..
        simpa using isLast
      · rw [isSet, run.fails]
        simp
  · have run : PlainRun p req new providers group.members false .success :=
      plainRun own finds isPassword resolved false .success
    have unasked : ¬ ∃ call ∈ setEachCalls p req new group.members providers, call.reboots p = true := by
      rintro ⟨call, mem, reboots⟩
      rw [run.unasked call mem] at reboots
      cases reboots
    constructor
    · rintro ⟨values, notifies, reboots, fails⟩
      rw [isCalls] at notifies
      exact ⟨((announced_eq_iff false _).mp (run.notices.symm.trans notifies)).2, run.told,
        fun asks => absurd asks unasked⟩
    · rintro ⟨unhidden, _, _⟩
      have noneSeen : false = true → ∀ call ∈ setEachCalls p req new group.members providers,
          call.changes p = false := by
        intro absurd
        cases absurd
      refine ⟨by rw [isSet]; exact run.values, ?_, ?_, ?_⟩
      · rw [isCalls]
        exact run.notices.trans ((announced_eq_iff false _).mpr ⟨noneSeen, unhidden⟩)
      · rw [isSet]
        refine iff_of_false (fun asks => ?_) ?_
        · exact Bool.false_ne_true (run.flags.symm.trans asks)
        · rintro ⟨done, mem, asks⟩
          rw [run.eachFlags done mem] at asks
          cases asks
      · rw [isSet]
        exact (run.fails noneSeen unhidden).trans (by simp)

end

/-! The WPBT setting, which is enabled by default, and a setting that is disabled. -/

def ownPlatform : Platform where
  setSettingValue := ProviderServices.setSettingValue {}

def ownProvider (setting : OwnSetting) (value : List Byte) : SettingProvider :=
  ⟨setting.id, setting.type, setting.flags, value⟩

def onboardId : SettingId := .ofString "Oem.Onboard.Enable"

def onboard (registrations : List SettingProvider) : Providers :=
  registered ownPlatform [⟨onboardId, [OwnSetting.wpbt.id, OwnSetting.sample.id], by decide +kernel, by decide +kernel⟩]
    registrations

def localRequest : WriteRequest := ⟨some (PermissionStore.blankStore {}), .ok .local⟩

def enabledText : NewValue := .text (.ofString "Enabled")

theorem own_onboard {registrations : List SettingProvider}
    (only : ∀ provider ∈ (onboard registrations).list, ∃ setting : OwnSetting, provider.registration = setting.registration) :
    Own ownPlatform {} (onboard registrations) :=
  ⟨fun setting => ProviderServices.setSettingValue_id {} setting, only⟩

/-- The setting that changes comes first. -/
theorem setsLikeMembers_onboard : SetsLikeMembers ownPlatform localRequest enabledText
      (onboard [ownProvider .sample [0], ownProvider .wpbt []]) onboardId [OwnSetting.sample.id, OwnSetting.wpbt.id] := by
  have evaluated : (∀ provider ∈ (onboard [ownProvider .sample [0], ownProvider .wpbt []]).list,
        provider = ownProvider .sample [0] ∨ provider = ownProvider .wpbt []) ∧
      (onboard [ownProvider .sample [0], ownProvider .wpbt []]).findProviderById ownPlatform onboardId = none ∧
      findGroup (onboard [ownProvider .sample [0], ownProvider .wpbt []]).groups onboardId =
        some ⟨onboardId, [OwnSetting.sample.id, OwnSetting.wpbt.id]⟩ ∧
      (onboard [ownProvider .sample [0], ownProvider .wpbt []]).findProviderById ownPlatform OwnSetting.sample.id =
        some (ownProvider .sample [0]) ∧
      (onboard [ownProvider .sample [0], ownProvider .wpbt []]).findProviderById ownPlatform OwnSetting.wpbt.id =
        some (ownProvider .wpbt []) := by
    decide +kernel
  obtain ⟨list, noProvider, found, sample, wpbt⟩ := evaluated
  have own : Own ownPlatform {} (onboard [ownProvider .sample [0], ownProvider .wpbt []]) := by
    refine own_onboard fun provider mem => ?_
    rcases list provider mem with rfl | rfl
    · exact ⟨.sample, rfl⟩
    · exact ⟨.wpbt, rfl⟩
  have resolved : Resolved ownPlatform .enable [OwnSetting.sample.id, OwnSetting.wpbt.id]
      (onboard [ownProvider .sample [0], ownProvider .wpbt []]) := by
    rw [Resolved, List.forall_mem_cons, List.forall_mem_singleton]
    exact ⟨⟨_, sample, rfl⟩, ⟨_, wpbt, rfl⟩⟩
  refine (setsLikeMembers_iff own (fun _ => by simp) (by decide) noProvider found resolved).mpr ⟨?_, ?_, ?_⟩
  · rw [Unhidden]
    decide +kernel
  · decide +kernel
  · decide +kernel

/-- The WPBT setting has the value, and so the change of the other setting is not announced. -/
theorem hidden_change_onboard : ¬ SetsLikeMembers ownPlatform localRequest enabledText
      (onboard [ownProvider .wpbt [], ownProvider .sample [0]]) onboardId [OwnSetting.wpbt.id, OwnSetting.sample.id] := by
  intro like
  have notifies := like.notifies
  revert notifies
  decide +kernel

end Providers

end Dfci
