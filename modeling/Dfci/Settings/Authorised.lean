import Dfci.Settings.Calls
import Dfci.Settings.Groups
import Dfci.System.Reset

/-! # Whose settings are written

The permission is asked for the id of the request, and the provider is found for what that id stands for. From text
and from a packet the two are the same; a direct call can name a provider by another id. -/

namespace Dfci

open FirstMatch

namespace Providers

/-! ## What the calls of providers leave -/

def keys (providers : Providers) : List (SettingId × SettingType) :=
  providers.list.map fun provider => (provider.id, provider.type)

theorem keys_setValue (providers : Providers) (provider : SettingProvider) (value : List Byte) :
    (providers.setValue provider value).keys = providers.keys := by
  simp only [keys, setValue]
  apply map_modifyFirst
  intro other
  rfl

section

variable {p : Platform} {req : WriteRequest} {providers : Providers}

theorem replay_same (p : Platform) (providers : Providers) (calls : List SetCall) :
    (providers.replay p calls).keys = providers.keys ∧ (providers.replay p calls).groups = providers.groups := by
  induction calls generalizing providers with
  | nil => exact ⟨rfl, rfl⟩
  | cons call calls ih =>
    obtain ⟨keys, groups⟩ := ih (providers.setValue call.provider (call.kept p))
    exact ⟨keys.trans (keys_setValue providers _ _), groups⟩

theorem findProviderById_keys (p : Platform) {first second : Providers} (same : first.keys = second.keys) (id : SettingId) :
    (first.findProviderById p id).map (fun provider => (provider.id, provider.type)) =
      (second.findProviderById p id).map fun provider => (provider.id, provider.type) := by
  have search : ∀ (providers : Providers) (realId : SettingId),
      (providers.list.find? fun provider => sameSettingId provider.id realId).map
        (fun provider => (provider.id, provider.type)) =
      providers.keys.find? fun key => sameSettingId key.1 realId := by
    intro providers realId
    rw [keys, List.find?_map]
    rfl
  simp only [findProviderById]
  cases (if id.startsWithDigit then p.v1TranslateString id else some id) with
  | none => rfl
  | some realId => simp only [Option.bind_some, search, same]

/-- A provider that was found for some id is found for its own. -/
theorem findProviderById_again {id : SettingId} {provider : SettingProvider}
    (found : providers.findProviderById p id = some provider) :
    providers.findProviderById p provider.id = some provider := by
  have named := providers.named provider (findProviderById_mem found)
  obtain ⟨realId, _, search⟩ := Option.bind_eq_some_iff.mp found
  have matches' := List.find?_some search
  rw [sameSettingId, decide_eq_true_eq] at matches'
  have sameSearch : (fun other : SettingProvider => sameSettingId other.id provider.id) =
      fun other => sameSettingId other.id realId := by
    funext other
    rw [sameSettingId, sameSettingId, matches']
  simp only [findProviderById, named, Bool.false_eq_true, if_false, Option.bind_some, sameSearch, search]

/-! ## A direct call -/

/-- Where the id may be written, the setting of the provider that is found for it may be written too. -/
def ResolvesWritable (p : Platform) (req : WriteRequest) (providers : Providers) (type : SettingType)
    (id : SettingId) : Prop :=
  ∀ provider, providers.findProviderById p id = some provider → type = provider.type →
    req.hasWritePermissions providers.groups id = .ok true →
    req.hasWritePermissions providers.groups provider.id = .ok true

/-- The ids for which a call looks for a provider and asks for the permission: its own, or the members of its group. -/
def requestedIds (p : Platform) (providers : Providers) (id : SettingId) : List SettingId :=
  match providers.findProviderById p id with
  | some _ => [id]
  | none =>
    match findGroup providers.groups id with
    | none => []
    | some group => group.members

/-- A provider that is found for a name, not for a number or the first 96 characters of one, has that name. -/
theorem resolvesWritable_of_name {providers : Providers} (named : ∀ id ∈ providers.ids, id.chars.length ≤ 96)
    {id : SettingId} (plain : id.startsWithDigit = false) (isNamed : id.chars.length ≤ 96) (type : SettingType) :
    ResolvesWritable p req providers type id := by
  intro provider found _ permitted
  simp only [findProviderById, plain, Bool.false_eq_true, if_false, Option.bind_some] at found
  have same := List.find?_some found
  have mem : provider.id ∈ providers.ids := List.mem_map_of_mem (List.mem_of_find?_eq_some found)
  rw [(sameSettingId_iff (named provider.id mem) isNamed).mp same]
  exact permitted

theorem ResolvesWritable.congr {first second : Providers} (keys : first.keys = second.keys)
    (groups : first.groups = second.groups) {type : SettingType} {id : SettingId}
    (resolves : ResolvesWritable p req first type id) : ResolvesWritable p req second type id := by
  intro provider found sameType permitted
  have sameKey := findProviderById_keys p keys id
  rw [found] at sameKey
  obtain ⟨other, isOther, key⟩ := Option.map_eq_some_iff.mp sameKey
  obtain ⟨sameId, otherType⟩ := Prod.ext_iff.mp key
  simp only at sameId otherType
  rw [← groups] at permitted ⊢
  rw [← sameId]
  exact resolves other isOther (sameType.trans otherType.symm) permitted

theorem accessSetMemberCalls_authorised_iff (p : Platform) (req : WriteRequest) (providers : Providers)
    (type : SettingType) (id : SettingId) (value : List Byte) (flags : SettingFlags) :
    (∀ call ∈ accessSetMemberCalls p req providers id type value flags, call.Authorised providers.groups) ↔
      ResolvesWritable p req providers type id := by
  rw [accessSetMemberCalls, ResolvesWritable]
  cases providers.findProviderById p id with
  | none => simp
  | some provider =>
    simp only [accessSetProviderCalls, Option.some.injEq, forall_eq']
    split
    · rename_i called
      simp [SetCall.Authorised, called]
    · rename_i notCalled
      exact ⟨fun _ sameType permitted => absurd ⟨permitted, sameType⟩ notCalled, fun _ => List.forall_mem_nil _⟩

theorem accessSetMembersCalls_authorised_iff (type : SettingType) (value : List Byte) (ids : List SettingId)
    (flags : SettingFlags) (providers : Providers) :
    (∀ call ∈ accessSetMembersCalls p req type value ids flags providers, call.Authorised providers.groups) ↔
      ∀ id ∈ ids, ResolvesWritable p req providers type id := by
  induction ids generalizing flags providers with
  | nil => simp [accessSetMembersCalls]
  | cons id ids ih =>
    have first := accessSetMemberCalls_authorised_iff p req providers type id value flags
    have rest := ih (accessSetMember p req providers id type value flags).flags
      (accessSetMember p req providers id type value flags).providers
    -- a call changes values only, so the other members find the same providers
    have same := replay_same p providers (accessSetMemberCalls p req providers id type value flags)
    rw [← accessSetMember_replay] at same
    obtain ⟨keys, groups⟩ := same
    rw [groups] at rest
    rw [accessSetMembersCalls, List.forall_mem_append, List.forall_mem_cons, first, rest]
    refine and_congr_right fun _ => ⟨?_, ?_⟩
    · exact fun all other mem => (all other mem).congr keys groups
    · exact fun all other mem => (all other mem).congr keys.symm groups.symm

theorem internalSystemSettingAccessSetCalls_authorised_iff (providers : Providers) (id : SettingId)
    (type : SettingType) (value : List Byte) (flags : SettingFlags) :
    (∀ call ∈ internalSystemSettingAccessSetCalls p req providers id type value flags,
        call.Authorised providers.groups) ↔
      ∀ requested ∈ providers.requestedIds p id, ResolvesWritable p req providers type requested := by
  rw [internalSystemSettingAccessSetCalls, requestedIds]
  cases found : providers.findProviderById p id with
  | some provider =>
    rw [List.forall_mem_singleton, ← accessSetMemberCalls_authorised_iff p req providers type id value flags,
      accessSetMemberCalls, found]
  | none =>
    cases findGroup providers.groups id with
    | none => simp
    | some group => exact accessSetMembersCalls_authorised_iff type value group.members flags providers

/-! ## A call from text -/

/-- From text the permission is asked for the id of the provider itself. -/
theorem setIndividualSettingsCalls_authorised {id : SettingId} {provider : SettingProvider}
    (found : providers.findProviderById p id = some provider) (value : AsciiString) (flags : SettingFlags) :
    ∀ call ∈ setIndividualSettingsCalls p req providers provider value flags, call.Authorised providers.groups := by
  rw [setIndividualSettingsCalls]
  split
  · exact List.forall_mem_nil _
  · split
    · exact List.forall_mem_nil _
    · have again := findProviderById_again found
      rw [internalSystemSettingAccessSetCalls_authorised_iff, requestedIds, again, List.forall_mem_singleton]
      intro other isOther _ permitted
      cases again.symm.trans isOther
      exact permitted

theorem setMembersFromAsciiCalls_authorised (value : AsciiString) (ids : List SettingId) (flags : SettingFlags)
    (providers : Providers) :
    ∀ call ∈ setMembersFromAsciiCalls p req value ids flags providers, call.Authorised providers.groups := by
  induction ids generalizing flags providers with
  | nil => exact List.forall_mem_nil _
  | cons id ids ih =>
    rw [setMembersFromAsciiCalls]
    cases found : providers.findProviderById p id with
    | none => exact List.forall_mem_nil _
    | some provider =>
      have rest := ih (setIndividualSettings p req providers provider value flags).flags
        (setIndividualSettings p req providers provider value flags).providers
      have groups := (replay_same p providers
        (setIndividualSettingsCalls p req providers provider value flags)).2
      rw [← setIndividualSettings_replay] at groups
      rw [groups] at rest
      exact List.forall_mem_append.mpr ⟨setIndividualSettingsCalls_authorised found value flags, rest⟩

theorem setSettingFromAsciiCalls_authorised (providers : Providers) (id : SettingId) (value : AsciiString)
    (flags : SettingFlags) :
    ∀ call ∈ setSettingFromAsciiCalls p req providers id value flags, call.Authorised providers.groups := by
  rw [setSettingFromAsciiCalls]
  split
  · exact List.forall_mem_nil _
  · cases found : providers.findProviderById p id with
    | some provider => exact setIndividualSettingsCalls_authorised found value flags
    | none =>
      cases findGroup providers.groups id with
      | none => exact List.forall_mem_nil _
      | some group => exact setMembersFromAsciiCalls_authorised value group.members flags providers

end

end Providers

/-! ## A settings packet -/

namespace SettingsState

open SettingsXml

section

variable {p : Platform}

theorem applyElementsCalls_authorised (req : WriteRequest) (elements : List XmlNode) (providers : Providers) :
    ∀ call ∈ applyElementsCalls p req elements providers, call.Authorised providers.groups := by
  induction elements generalizing providers with
  | nil => exact List.forall_mem_nil _
  | cons element elements ih =>
    rw [applyElementsCalls]
    cases getInputSettings element with
    | error status => exact List.forall_mem_nil _
    | ok input =>
      obtain ⟨id, value⟩ := input
      have rest := ih (Providers.setSettingFromAscii p req providers id value 0).providers
      have groups := (Providers.replay_same p providers
        (Providers.setSettingFromAsciiCalls p req providers id value 0)).2
      rw [← Providers.setSettingFromAscii_replay] at groups
      rw [groups] at rest
      refine List.forall_mem_append.mpr ⟨Providers.setSettingFromAsciiCalls_authorised providers id value 0, ?_⟩
      split
      · exact List.forall_mem_nil _
      · exact rest

theorem applyNewSettingsPacketCalls_authorised (certs : CertStore) (store : Option PermissionStore) (auth : AuthState)
    (settings : SettingsState) (data : Packet) :
    ∀ call ∈ applyNewSettingsPacketCalls p certs store auth settings data,
      call.Authorised settings.providers.groups := by
  rw [applyNewSettingsPacketCalls]
  split
  · exact List.forall_mem_nil _
  · cases validateSettingsPacket data with
    | error code => exact List.forall_mem_nil _
    | success =>
      simp only [applyLoadedCalls]
      split
      · exact List.forall_mem_nil _
      · simp only [applySettingsCalls]
        split
        · exact List.forall_mem_nil _
        · exact applyElementsCalls_authorised _ _ _

end

end SettingsState

/-! ## The entry points -/

/-- A call that sets settings: `Set` and `SetSettingFromAscii` under a token, for the id of a setting or of a group,
and a settings packet, which brings its own token. -/
inductive SettingEntry where
  | set (token : AuthToken) (id : SettingId) (type : SettingType) (value : List Byte) (flags : SettingFlags)
  | setFromAscii (token : AuthToken) (id : SettingId) (value : AsciiString) (flags : SettingFlags)
  | packet (box : MailBox) (data : Packet)

namespace SettingEntry

def request (m : Machine) (token : AuthToken) : WriteRequest :=
  ⟨m.permissions.store, m.auth.getIdentityProperties token⟩

/-- The calls of `SetSettingValue` that an entry point makes. -/
def calls (p : Platform) (m : Machine) : SettingEntry → List SetCall
  | .set token id type value flags =>
    Providers.internalSystemSettingAccessSetCalls p (request m token) m.settings.providers id type
      value flags
  | .setFromAscii token id value flags =>
    Providers.setSettingFromAsciiCalls p (request m token) m.settings.providers id value flags
  | .packet _ data =>
    SettingsState.applyNewSettingsPacketCalls p m.certs m.permissions.store m.auth
      m.settings data

def providers (p : Platform) (m : Machine) : SettingEntry → Providers
  | .set token id type value flags =>
    (Providers.internalSystemSettingAccessSet p (request m token) m.settings.providers id type value flags).providers
  | .setFromAscii token id value flags =>
    (Providers.setSettingFromAscii p (request m token) m.settings.providers id value flags).providers
  | .packet box data =>
    (SettingsState.applyNewSettingsPacket p box m.certs m.permissions.store m.auth m.settings data).settings.providers

/-- Nothing but these calls changes a provider. -/
theorem providers_eq_replay (p : Platform) (m : Machine) (entry : SettingEntry) :
    entry.providers p m = m.settings.providers.replay p (entry.calls p m) := by
  cases entry with
  | set token id type value flags => exact Providers.internalSystemSettingAccessSet_replay ..
  | setFromAscii token id value flags => exact Providers.setSettingFromAscii_replay ..
  | packet box data => exact SettingsState.applyNewSettingsPacket_replay ..

/-- A direct call asks for no id that may be written although the setting it stands for may not. -/
def AsksForSetting (p : Platform) (m : Machine) : SettingEntry → Prop
  | .set token id type _ _ => ∀ requested ∈ m.settings.providers.requestedIds p id,
      Providers.ResolvesWritable p (request m token) m.settings.providers type requested
  | .setFromAscii .. | .packet .. => True

/-- Every setting that an entry point writes may be written, exactly when it is not a direct call for an id with more
rights than the setting it stands for. -/
theorem calls_authorised_iff (p : Platform) (m : Machine) (entry : SettingEntry) :
    (∀ call ∈ entry.calls p m, call.Authorised m.settings.providers.groups) ↔ entry.AsksForSetting p m := by
  cases entry with
  | set token id type value flags => exact Providers.internalSystemSettingAccessSetCalls_authorised_iff ..
  | setFromAscii token id value flags =>
    exact iff_true_intro (Providers.setSettingFromAsciiCalls_authorised m.settings.providers id value flags)
  | packet box data => exact iff_true_intro (SettingsState.applyNewSettingsPacketCalls_authorised _ _ _ _ data)

/-- For settings that were registered within the limit on names it takes a number, or a name beyond the limit, to write
one without its rights. The members of a group are asked for by their own names. -/
theorem asksForSetting_of_name {p : Platform} {m : Machine} {table : List GroupEntry}
    {registrations : List SettingProvider} (short : ∀ provider ∈ registrations, provider.id.chars.length ≤ 96)
    (keys : m.settings.providers.keys = (Providers.registered p table registrations).keys)
    (groups : m.settings.providers.groups = (Providers.registered p table registrations).groups)
    (token : AuthToken) {id : SettingId} (type : SettingType) (value : List Byte) (flags : SettingFlags)
    (byName : m.settings.providers.findProviderById p id = none ∨ id.startsWithDigit = false ∧ id.chars.length ≤ 96) :
    (SettingEntry.set token id type value flags).AsksForSetting p m := by
  have ids : m.settings.providers.ids = (Providers.registered p table registrations).ids := by
    have names := congrArg (List.map Prod.fst) keys
    rw [Providers.keys, Providers.keys, List.map_map, List.map_map] at names
    exact names
  have named : ∀ id ∈ m.settings.providers.ids, id.chars.length ≤ 96 :=
    ids ▸ Providers.named_ids_registered short
  have members : m.settings.providers.MembersRegistered := by
    rw [Providers.MembersRegistered, groups, ids]
    exact Providers.membersRegistered registrations
  intro requested isRequested
  rw [Providers.requestedIds] at isRequested
  split at isRequested
  · rename_i found
    rw [List.mem_singleton] at isRequested
    subst isRequested
    rw [found] at byName
    obtain ⟨plain, isNamed⟩ := byName.resolve_left nofun
    exact Providers.resolvesWritable_of_name named plain isNamed type
  · split at isRequested
    · cases isRequested
    · rename_i group isGroup
      have isSetting := members group (List.mem_of_find?_eq_some isGroup) requested isRequested
      obtain ⟨provider, mem, rfl⟩ := List.mem_map.mp isSetting
      exact Providers.resolvesWritable_of_name named (m.settings.providers.named provider mem)
        (named provider.id isSetting) type

/-! A setting that the Owner keeps to itself is written by the local user, through its number. -/

def numberedPlatform : Platform :=
  { PermissionStore.packetPlatform [] (PermissionStore.permissionsPacket "1" "1" "True"
        [PermissionStore.permissionElement "Device.PlatformSetting1.Enable" "128" "128"]) with
    pkcs7Verify := keyedPlatform.pkcs7Verify
    v1TranslateString := fun id => if id = .ofString "1" then some PermissionStore.platformSetting1 else none
    setSettingValue := fun _ flags value _ => (.success, flags, value) }

def setting1Provider : Providers :=
  ⟨[⟨PermissionStore.platformSetting1, .enable, 0, [0]⟩], [], by
    intro provider mem
    rw [List.mem_singleton.mp mem]
    exact (by decide : PermissionStore.platformSetting1.startsWithDigit = false)⟩

def restrictedMachine : Machine :=
  Runs.run (Machine.step numberedPlatform) (.blank setting1Provider 0)
    [.boot {}, .mailboxes confirmingUser confirmingUser Machine.ownerMailboxes, .authWithPW .null 0]

def localUserEntry (id : String) : SettingEntry := .set 4 (.ofString id) .enable [1] 0

theorem numbered_setting_unauthorised : restrictedMachine.Reachable numberedPlatform ∧
      (((localUserEntry "1").calls numberedPlatform restrictedMachine).map fun call => call.provider.id) =
        [PermissionStore.platformSetting1] ∧ ¬ ∀ call ∈ (localUserEntry "1").calls numberedPlatform restrictedMachine,
        call.Authorised restrictedMachine.settings.providers.groups :=
  ⟨⟨_, _, _, rfl⟩, by decide +kernel, by decide +kernel⟩

end SettingEntry

end Dfci
