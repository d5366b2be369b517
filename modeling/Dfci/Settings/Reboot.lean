import Dfci.Settings.OwnProviders

/-! # Settings that need a reboot

A provider asks for a reboot through the flags of its caller, which the members of a group share; `ApplySettings` ors
them into the packet's `ResetRequired`. Followed here is what becomes of the request of the password, the only provider
that makes one, up to the end of the packet. -/

namespace Dfci

open FirstMatch

namespace Providers

/-- A setting whose provider is registered as needing a reboot has a value that it did not have. -/
def RebootMoved (before after : Providers) : Prop :=
  ∃ provider ∈ after.list, provider.flags.rebootRequired = true ∧ provider ∉ before.list

instance (before after : Providers) : Decidable (RebootMoved before after) :=
  inferInstanceAs (Decidable (∃ provider ∈ after.list, provider.flags.rebootRequired = true ∧ provider ∉ before.list))

structure Own (p : Platform) (svc : ProviderServices) (providers : Providers) : Prop where
  sets : ∀ setting : OwnSetting, p.setSettingValue setting.id = svc.set setting
  registered : ∀ provider ∈ providers.list, ∃ setting : OwnSetting, provider.registration = setting.registration

/-! ## One call -/

section

variable {p : Platform} {svc : ProviderServices} (req : WriteRequest) {providers : Providers}

/-- What a value given as text can do to a setting: nothing, or one call of its provider. -/
theorem setIndividualSettings_cases {id : SettingId} {provider : SettingProvider}
    (found : providers.findProviderById p id = some provider) (value : AsciiString) (flags : SettingFlags) :
    let done := setIndividualSettings p req providers provider value flags
    (done.flags = flags ∧ done.providers = providers) ∨
      ∃ bytes, valueFromAscii p provider.type value = .ok bytes ∧
        done.flags = (p.setSettingValue provider.id flags bytes provider.value).2.1 ∧
        done.providers =
          providers.setValue provider (p.setSettingValue provider.id flags bytes provider.value).2.2 := by
  simp only [setIndividualSettings]
  split
  · exact .inl ⟨rfl, rfl⟩
  · cases converted : valueFromAscii p provider.type value with
    | error status => exact .inl ⟨rfl, rfl⟩
    | ok bytes =>
      simp only [internalSystemSettingAccessSet, findProviderById_again found, accessSetProvider]
      split
      · exact .inl ⟨rfl, rfl⟩
      · exact .inl ⟨rfl, rfl⟩
      · rw [if_neg fun differ => differ rfl]
        refine .inr ⟨bytes, rfl, ?_⟩
        generalize p.setSettingValue provider.id flags bytes provider.value = answer
        obtain ⟨status, after, kept⟩ := answer
        cases status <;> exact ⟨rfl, rfl⟩

/-- The provider that is found is the first with its id. -/
theorem findProviderById_first {id : SettingId} {provider : SettingProvider}
    (found : providers.findProviderById p id = some provider) :
    providers.list.find? (fun other => decide (other.id = provider.id)) = some provider := by
  obtain ⟨realId, _, search⟩ := Option.bind_eq_some_iff.mp found
  have matches' := List.find?_some search
  refine find?_of_imp search (decide_eq_true rfl) fun other same => ?_
  rw [of_decide_eq_true same]
  exact matches'

theorem mem_setValue {id : SettingId} {provider other : SettingProvider} {value : List Byte}
    (found : providers.findProviderById p id = some provider)
    (mem : other ∈ (providers.setValue provider value).list) :
    other ∈ providers.list ∨ other = { provider with value := value } := by
  rcases mem_modifyFirst mem with old | ⟨original, first, rfl⟩
  · exact .inl old
  · cases (findProviderById_first found).symm.trans first
    exact .inr rfl

theorem setValue_self {id : SettingId} {provider : SettingProvider}
    (found : providers.findProviderById p id = some provider) : providers.setValue provider provider.value = providers := by
  have list : (providers.setValue provider provider.value).list = providers.list := by
    refine Eq.trans (modifyFirst_congr fun element isFirst => ?_) (modifyFirst_unchanged _ _)
    cases (findProviderById_first found).symm.trans isFirst
    rfl
  cases providers
  simp only [setValue] at list ⊢
  simp only [list]

theorem registrations_setValue (providers : Providers) (provider : SettingProvider) (value : List Byte) :
    (providers.setValue provider value).list.map SettingProvider.registration =
      providers.list.map SettingProvider.registration := by
  simp only [setValue]
  apply map_modifyFirst
  intro other
  rfl

theorem registrations_replay (p : Platform) (providers : Providers) (calls : List SetCall) :
    (providers.replay p calls).list.map SettingProvider.registration =
      providers.list.map SettingProvider.registration := by
  induction calls generalizing providers with
  | nil => rfl
  | cons call calls ih => exact (ih _).trans (registrations_setValue ..)

end

/-! ## What safe calls leave alone -/

structure KeepsWpbt (before after : Providers) : Prop where
  registrations : after.list.map SettingProvider.registration = before.list.map SettingProvider.registration
  groups : after.groups = before.groups
  wpbt : ∀ provider ∈ after.list, provider.id = OwnSetting.wpbt.id → provider ∈ before.list

section

variable {p : Platform} {svc : ProviderServices} {before between after : Providers}

theorem KeepsWpbt.refl (providers : Providers) : KeepsWpbt providers providers :=
  ⟨rfl, rfl, fun _ mem _ => mem⟩

theorem KeepsWpbt.trans (first : KeepsWpbt before between) (second : KeepsWpbt between after) : KeepsWpbt before after where
  registrations := second.registrations.trans first.registrations
  groups := second.groups.trans first.groups
  wpbt := fun provider mem isWpbt => first.wpbt provider (second.wpbt provider mem isWpbt) isWpbt

theorem KeepsWpbt.keys (keeps : KeepsWpbt before after) : after.keys = before.keys := by
  have fromRegistrations : ∀ providers : Providers,
      providers.keys =
        (providers.list.map SettingProvider.registration).map fun registered => (registered.1, registered.2.1) := by
    intro providers
    rw [List.map_map]
    rfl
  rw [fromRegistrations, fromRegistrations, keeps.registrations]

theorem Own.congr (own : Own p svc before)
    (same : after.list.map SettingProvider.registration = before.list.map SettingProvider.registration) :
    Own p svc after := by
  refine ⟨own.sets, fun provider mem => ?_⟩
  have listed : provider.registration ∈ before.list.map SettingProvider.registration :=
    same ▸ List.mem_map_of_mem mem
  obtain ⟨other, inBefore, sameRegistration⟩ := List.mem_map.mp listed
  obtain ⟨setting, registered⟩ := own.registered other inBefore
  exact ⟨setting, sameRegistration.symm.trans registered⟩

theorem KeepsWpbt.own (keeps : KeepsWpbt before after) (own : Own p svc before) : Own p svc after :=
  own.congr keeps.registrations

theorem not_rebootMoved_refl (providers : Providers) : ¬ RebootMoved providers providers := by
  intro moved
  obtain ⟨provider, mem, _, isNew⟩ := moved
  exact isNew mem

/-- What did not move in either half did not move. -/
theorem RebootMoved.split (moved : RebootMoved before after) : RebootMoved before between ∨ RebootMoved between after := by
  obtain ⟨provider, mem, needs, isNew⟩ := moved
  by_cases there : provider ∈ between.list
  · exact .inl ⟨provider, there, needs, isNew⟩
  · exact .inr ⟨provider, mem, needs, there⟩

def resolvedIds (p : Platform) (providers : Providers) (ids : List SettingId) : List SettingId :=
  ids.filterMap fun id => (providers.findProviderById p id).map SettingProvider.id

theorem KeepsWpbt.findProviderById (keeps : KeepsWpbt before after) (p : Platform) (id : SettingId) :
    (after.findProviderById p id).map SettingProvider.id = (before.findProviderById p id).map SettingProvider.id := by
  have same := congrArg (Option.map Prod.fst) (findProviderById_keys p keeps.keys id)
  rw [Option.map_map, Option.map_map] at same
  exact same

theorem KeepsWpbt.resolvedIds (keeps : KeepsWpbt before after) (p : Platform) (ids : List SettingId) :
    after.resolvedIds p ids = before.resolvedIds p ids := by
  simp only [Providers.resolvedIds, keeps.findProviderById p]

def WpbtSafe (p : Platform) (providers : Providers) (value : AsciiString) (resolved : List SettingId) : Prop :=
  OwnSetting.wpbt.id ∈ resolved → ∀ provider ∈ providers.list, provider.id = OwnSetting.wpbt.id →
    ∀ bytes, valueFromAscii p OwnSetting.wpbt.type value = .ok bytes →
      bytes = ProviderServices.wpbtValue provider.value

theorem KeepsWpbt.wpbtSafe {value : AsciiString} {resolved : List SettingId} (keeps : KeepsWpbt before after)
    (safe : WpbtSafe p before value resolved) : WpbtSafe p after value resolved :=
  fun reached provider mem isWpbt => safe reached provider (keeps.wpbt provider mem isWpbt) isWpbt

theorem WpbtSafe.mono {providers : Providers} {value : AsciiString} {some all : List SettingId}
    (safe : WpbtSafe p providers value all) (fewer : some ⊆ all) : WpbtSafe p providers value some :=
  fun reached => safe (fewer reached)

end

/-! ## A setting, a group -/

section

variable {p : Platform} {svc : ProviderServices} (req : WriteRequest) {providers : Providers}

/-- A call with the value that is kept. -/
theorem keepsWpbt_setValue_same {id : SettingId} {provider : SettingProvider}
    (found : providers.findProviderById p id = some provider) {value : List Byte} (same : value = provider.value) :
    KeepsWpbt providers (providers.setValue provider value) ∧
      ¬ RebootMoved providers (providers.setValue provider value) := by
  rw [same, setValue_self found]
  exact ⟨.refl providers, not_rebootMoved_refl providers⟩

theorem keepsWpbt_setValue_other {id : SettingId} {provider : SettingProvider}
    (found : providers.findProviderById p id = some provider) (other : provider.id ≠ OwnSetting.wpbt.id)
    (value : List Byte) : KeepsWpbt providers (providers.setValue provider value) := by
  refine ⟨registrations_setValue .., rfl, fun changed mem isWpbt => ?_⟩
  rcases mem_setValue found mem with old | rfl
  · exact old
  · exact absurd isWpbt other

/-- The setting that a provider stands for. -/
theorem Own.setting (own : Own p svc providers) {provider : SettingProvider} (mem : provider ∈ providers.list) :
    ∃ setting : OwnSetting, provider.id = setting.id ∧ provider.type = setting.type ∧ provider.flags = setting.flags := by
  obtain ⟨setting, registered⟩ := own.registered provider mem
  simp only [SettingProvider.registration, OwnSetting.registration, Prod.mk.injEq] at registered
  exact ⟨setting, registered⟩

structure SilentCall (flags : SettingFlags) (before : Providers) (done : SettingSet) : Prop where
  flag : done.flags.rebootRequired = flags.rebootRequired
  keeps : KeepsWpbt before done.providers
  unmoved : ¬ RebootMoved before done.providers

structure AskingCall (before : Providers) (done : SettingSet) : Prop where
  keeps : KeepsWpbt before done.providers
  asks : RebootMoved before done.providers → done.flags.rebootRequired = true

theorem SilentCall.nothing {done : SettingSet} {flags : SettingFlags} (sameFlags : done.flags = flags)
    (sameProviders : done.providers = providers) : SilentCall flags providers done where
  flag := congrArg SettingFlags.rebootRequired sameFlags
  keeps := sameProviders ▸ .refl providers
  unmoved := sameProviders ▸ not_rebootMoved_refl providers

theorem AskingCall.nothing {done : SettingSet} (sameProviders : done.providers = providers) : AskingCall providers done where
  keeps := sameProviders ▸ .refl providers
  asks := fun moved => absurd (sameProviders ▸ moved) (not_rebootMoved_refl providers)

theorem SilentCall.trans {flags : SettingFlags} {first second : SettingSet} (silent : SilentCall flags providers first)
    (next : SilentCall first.flags first.providers second) : SilentCall flags providers second where
  flag := next.flag.trans silent.flag
  keeps := silent.keeps.trans next.keeps
  unmoved := fun moved => moved.split.elim silent.unmoved next.unmoved

theorem SilentCall.asking {flags : SettingFlags} {first second : SettingSet} (silent : SilentCall flags providers first)
    (next : AskingCall first.providers second) : AskingCall providers second where
  keeps := silent.keeps.trans next.keeps
  asks := fun moved => next.asks (moved.split.resolve_left silent.unmoved)

/-- A request for a reboot outlasts the calls that follow it. -/
theorem AskingCall.silent {first second : SettingSet} (asking : AskingCall providers first)
    (next : SilentCall first.flags first.providers second) : AskingCall providers second where
  keeps := asking.keeps.trans next.keeps
  asks := fun moved => next.flag.trans (asking.asks (moved.split.resolve_right next.unmoved))

section

variable (own : Own p svc providers) {id : SettingId} {provider : SettingProvider}
  (found : providers.findProviderById p id = some provider)
include own found

/-- A setting other than the password does not ask for a reboot and, if it is safe, does not need one. -/
theorem setIndividualSettings_silent (other : provider.id ≠ OwnSetting.password.id) {value : AsciiString}
    (safe : WpbtSafe p providers value [provider.id]) (flags : SettingFlags) :
    SilentCall flags providers (setIndividualSettings p req providers provider value flags) := by
  rcases setIndividualSettings_cases req found value flags with
    ⟨sameFlags, sameProviders⟩ | ⟨bytes, converts, newFlags, newProviders⟩
  · exact .nothing sameFlags sameProviders
  · have mem := findProviderById_mem found
    obtain ⟨setting, isId, isType, isFlags⟩ := own.setting mem
    have notPassword : setting ≠ .password := fun isPassword => other (isId.trans (congrArg OwnSetting.id isPassword))
    rw [isId, own.sets] at newFlags newProviders
    have silent := ProviderServices.silent_set svc notPassword flags bytes provider.value
    by_cases isWpbt : setting = .wpbt
    · -- the value is the one that the variable holds
      cases isWpbt
      have same := safe (List.mem_singleton.mpr isId.symm) provider mem isId bytes (isType ▸ converts)
      obtain ⟨keeps, unmoved⟩ := keepsWpbt_setValue_same found
        (ProviderServices.dfciWpbtSettingSet_same svc flags same)
      exact ⟨newFlags ▸ silent.rebootRequired, newProviders ▸ keeps, newProviders ▸ unmoved⟩
    · have notWpbt : provider.id ≠ OwnSetting.wpbt.id :=
        fun same => isWpbt (OwnSetting.id_injective (isId.symm.trans same))
      refine ⟨newFlags ▸ silent.rebootRequired, newProviders ▸ keepsWpbt_setValue_other found notWpbt _, ?_⟩
      -- a setting that is not registered for it needs no reboot
      rw [newProviders]
      rintro ⟨changed, inAfter, needs, isNew⟩
      rcases mem_setValue found inAfter with old | rfl
      · exact isNew old
      · have needs : provider.flags.rebootRequired = true := needs
        rw [isFlags] at needs
        exact (OwnSetting.eq_of_flags (bne_iff_ne.mp needs)).elim isWpbt notPassword

/-- The password asks for a reboot if it was changed. -/
theorem setIndividualSettings_password (isPassword : provider.id = OwnSetting.password.id) (value : AsciiString)
    (flags : SettingFlags) : AskingCall providers (setIndividualSettings p req providers provider value flags) := by
  rcases setIndividualSettings_cases req found value flags with
    ⟨sameFlags, sameProviders⟩ | ⟨bytes, converts, newFlags, newProviders⟩
  · exact .nothing sameProviders
  · have notWpbt : provider.id ≠ OwnSetting.wpbt.id := by
      rw [isPassword]
      decide
    rw [isPassword, own.sets] at newFlags newProviders
    refine ⟨newProviders ▸ keepsWpbt_setValue_other found notWpbt _, ?_⟩
    rw [newFlags, newProviders]
    rcases ProviderServices.passwordSet_reboots svc flags bytes provider.value with raised | kept
    · exact fun _ => raised
    · exact fun moved => absurd moved (keepsWpbt_setValue_same found kept).2

end

theorem resolvedIds_cons {id : SettingId} {provider : SettingProvider}
    (found : providers.findProviderById p id = some provider) (ids : List SettingId) :
    providers.resolvedIds p (id :: ids) = provider.id :: providers.resolvedIds p ids := by
  simp [resolvedIds, found]

section

variable {value : AsciiString} {ids : List SettingId} (returnStatus : EfiStatus) (flags : SettingFlags)
  (own : Own p svc providers)
include own

/-- Members of a group among which the password is not. -/
theorem setMembersFromAscii_silent (absent : OwnSetting.password.id ∉ providers.resolvedIds p ids)
    (safe : WpbtSafe p providers value (providers.resolvedIds p ids)) :
    SilentCall flags providers (setMembersFromAscii p req value ids returnStatus flags providers) := by
  induction ids generalizing returnStatus flags providers with
  | nil => exact .nothing rfl rfl
  | cons id ids ih =>
    rw [setMembersFromAscii]
    cases found : providers.findProviderById p id with
    | none => exact .nothing rfl rfl
    | some provider =>
      rw [resolvedIds_cons found] at absent safe
      have other : provider.id ≠ OwnSetting.password.id := fun same => absent (same ▸ List.mem_cons_self)
      have first := setIndividualSettings_silent req own found other (safe.mono (by simp)) flags
      -- the others find the providers that they found before
      have resolved := first.keeps.resolvedIds p ids
      refine first.trans (ih _ _ (first.keeps.own own) ?_ (first.keeps.wpbtSafe ?_))
      · rw [resolved]
        exact fun mem => absent (List.mem_cons_of_mem _ mem)
      · rw [resolved]
        exact safe.mono (List.subset_cons_self _ _)

/-- A group that lists the password once at most. -/
theorem setMembersFromAscii_asking (once : (providers.resolvedIds p ids).count OwnSetting.password.id ≤ 1)
    (safe : WpbtSafe p providers value (providers.resolvedIds p ids)) :
    AskingCall providers (setMembersFromAscii p req value ids returnStatus flags providers) := by
  induction ids generalizing returnStatus flags providers with
  | nil => exact .nothing rfl
  | cons id ids ih =>
    rw [setMembersFromAscii]
    cases found : providers.findProviderById p id with
    | none => exact .nothing rfl
    | some provider =>
      rw [resolvedIds_cons found] at once safe
      have restSafe := safe.mono (List.subset_cons_self provider.id _)
      by_cases isPassword : provider.id = OwnSetting.password.id
      · -- no other member clears the flags
        have first := setIndividualSettings_password req own found isPassword value flags
        have resolved := first.keeps.resolvedIds p ids
        refine first.silent (setMembersFromAscii_silent req _ _ (first.keeps.own own) ?_ (first.keeps.wpbtSafe ?_))
        · rw [resolved, ← List.count_eq_zero]
          rw [isPassword, List.count_cons_self] at once
          omega
        · rw [resolved]
          exact restSafe
      · have first := setIndividualSettings_silent req own found isPassword (safe.mono (by simp)) flags
        have resolved := first.keeps.resolvedIds p ids
        refine first.asking (ih _ _ (first.keeps.own own) ?_ (first.keeps.wpbtSafe ?_))
        · rw [resolved]
          rw [List.count_cons_of_ne isPassword] at once
          exact once
        · rw [resolved]
          exact restSafe

end

theorem SilentCall.toAsking {flags : SettingFlags} {done : SettingSet} (silent : SilentCall flags providers done) :
    AskingCall providers done :=
  ⟨silent.keeps, fun moved => absurd moved silent.unmoved⟩

def addressedIds (p : Platform) (providers : Providers) (id : SettingId) : List SettingId :=
  providers.resolvedIds p (providers.requestedIds p id)

/-- An id and a text that lose no reboot: the WPBT setting gets only the value that it has, and the password is not
addressed twice. -/
structure SafeInput (p : Platform) (providers : Providers) (id : SettingId) (value : AsciiString) : Prop where
  wpbt : WpbtSafe p providers value (providers.addressedIds p id)
  once : (providers.addressedIds p id).count OwnSetting.password.id ≤ 1

theorem KeepsWpbt.addressedIds {before after : Providers} (keeps : KeepsWpbt before after) (id : SettingId) :
    after.addressedIds p id = before.addressedIds p id := by
  have requested : after.requestedIds p id = before.requestedIds p id := by
    have same := keeps.findProviderById p id
    rw [requestedIds, requestedIds, keeps.groups]
    cases isBefore : before.findProviderById p id with
    | none =>
      rw [isBefore, Option.map_none, Option.map_eq_none_iff] at same
      rw [same]
    | some provider =>
      rw [isBefore, Option.map_some] at same
      obtain ⟨other, isAfter, _⟩ := Option.map_eq_some_iff.mp same
      rw [isAfter]
  rw [Providers.addressedIds, Providers.addressedIds, requested, keeps.resolvedIds]

theorem KeepsWpbt.safeInput {before after : Providers} (keeps : KeepsWpbt before after) {id : SettingId}
    {value : AsciiString} (safe : SafeInput p before id value) : SafeInput p after id value where
  wpbt := by
    rw [keeps.addressedIds]
    exact keeps.wpbtSafe safe.wpbt
  once := by
    rw [keeps.addressedIds]
    exact safe.once

theorem setSettingFromAscii_asking (own : Own p svc providers) {id : SettingId} {value : AsciiString}
    (safe : SafeInput p providers id value) (flags : SettingFlags) :
    AskingCall providers (setSettingFromAscii p req providers id value flags) := by
  obtain ⟨wpbt, once⟩ := safe
  rw [addressedIds, requestedIds] at wpbt once
  rw [setSettingFromAscii]
  split
  · exact .nothing rfl
  · cases found : providers.findProviderById p id with
    | some provider =>
      simp only [found, resolvedIds_cons found] at wpbt
      by_cases isPassword : provider.id = OwnSetting.password.id
      · exact setIndividualSettings_password req own found isPassword value flags
      · exact (setIndividualSettings_silent req own found isPassword wpbt flags).toAsking
    | none =>
      simp only [found] at wpbt once
      cases isGroup : findGroup providers.groups id with
      | none => exact .nothing rfl
      | some group =>
        simp only [isGroup] at wpbt once
        exact setMembersFromAscii_asking req .success flags own once wpbt

end

end Providers

/-! ## A settings packet -/

namespace SettingsState

open SettingsXml Providers

section

variable {p : Platform} {svc : ProviderServices} {providers : Providers}

def inputIds (elements : List XmlNode) : List SettingId :=
  elements.filterMap fun element => (getInputSettings element).toOption.map Prod.fst

/-- The elements of a packet that loses no reboot: each can be read, has an id and is safe, and the result document
fits whatever the results are. -/
structure SafeElements (p : Platform) (providers : Providers) (elements : List XmlNode) : Prop where
  readable : ∀ element ∈ elements, ∃ input, getInputSettings element = .ok input ∧ input.1.chars ≠ []
  inputs : ∀ element ∈ elements, ∀ id value, getInputSettings element = .ok (id, value) →
    SafeInput p providers id value
  fits : ∀ results : List SettingResult, results.map Prod.fst = inputIds elements →
    (checkResultXml p results).isOk = true

/-- Once a reboot was asked for in the element loop, it stays asked for. -/
theorem applyElements_asking (req : WriteRequest) {elements : List XmlNode} (own : Own p svc providers)
    (safe : ∀ element ∈ elements, ∀ id value, getInputSettings element = .ok (id, value) →
      SafeInput p providers id value) (resetRequired : Bool) (results : List SettingResult)
    (needs : resetRequired = true ∨
      RebootMoved providers (applyElements p req elements providers resetRequired results).providers) :
    (applyElements p req elements providers resetRequired results).resetRequired = true := by
  induction elements generalizing providers resetRequired results with
  | nil => exact needs.resolve_right (not_rebootMoved_refl providers)
  | cons element elements ih =>
    rw [applyElements] at needs ⊢
    cases read : getInputSettings element with
    | error status =>
      simp only [read] at needs
      exact needs.resolve_right (not_rebootMoved_refl providers)
    | ok input =>
      obtain ⟨id, value⟩ := input
      simp only [read] at needs ⊢
      obtain ⟨first, rest⟩ := List.forall_mem_cons.mp safe
      have called := setSettingFromAscii_asking req own (first id value read) 0
      by_cases empty : id.chars = []
      · simp only [empty, if_true] at needs ⊢
        rw [setSettingFromAscii, if_pos empty] at needs
        exact needs.resolve_right (not_rebootMoved_refl providers)
      · simp only [empty, if_false] at needs ⊢
        refine ih (called.keeps.own own) ?_ _ _ ?_
        · exact fun other mem id value isInput => called.keeps.safeInput (rest other mem id value isInput)
        · rcases needs with already | moved
          · exact .inl (by rw [already, Bool.true_or])
          · rcases moved.split with here | later
            · have asked : (setSettingFromAscii p req providers id value 0).flags &&&
                  SettingFlags.outRebootRequired != 0 := called.asks here
              exact .inl (by rw [asked, Bool.or_true])
            · exact .inr later

theorem applyElements_results (p : Platform) (req : WriteRequest) {elements : List XmlNode}
    (readable : ∀ element ∈ elements, ∃ input, getInputSettings element = .ok input ∧ input.1.chars ≠ [])
    (providers : Providers) (resetRequired : Bool) (results : List SettingResult) :
    ∃ added, (applyElements p req elements providers resetRequired results).results =
      .ok (results ++ added) ∧ added.map Prod.fst = inputIds elements := by
  induction elements generalizing providers resetRequired results with
  | nil => exact ⟨[], by simp [applyElements], rfl⟩
  | cons element elements ih =>
    obtain ⟨⟨⟨id, value⟩, read, filled⟩, rest⟩ := List.forall_mem_cons.mp readable
    let done := setSettingFromAscii p req providers id value 0
    obtain ⟨added, isAdded, ids⟩ := ih rest done.providers
      (resetRequired || done.flags &&& SettingFlags.outRebootRequired != 0) (results ++ [(id, done.status, done.flags)])
    refine ⟨(id, done.status, done.flags) :: added, ?_, ?_⟩
    · simp only [applyElements, read, if_neg filled]
      rw [List.append_assoc] at isAdded
      exact isAdded
    · rw [List.map_cons, ids, inputIds, inputIds, List.filterMap_cons, read]
      rfl

theorem applySettings_asking (req : WriteRequest) (internal : InternalData) (xml : List Byte)
    (own : Own p svc providers) (safe : ∀ updated list, readDocument p internal xml = .ok (updated, list) →
      SafeElements p providers list.children) (resetRequired : Bool)
    (moved : RebootMoved providers (applySettings p req internal xml providers resetRequired).providers) :
    (applySettings p req internal xml providers resetRequired).resetRequired = true ∧
      (applySettings p req internal xml providers resetRequired).outcome.isOk = true := by
  rw [applySettings] at moved ⊢
  cases read : readDocument p internal xml with
  | error failure =>
    simp only [read] at moved
    exact absurd moved (not_rebootMoved_refl providers)
  | ok document =>
    obtain ⟨updated, list⟩ := document
    simp only [read] at moved ⊢
    obtain ⟨readable, inputs, fits⟩ := safe updated list read
    refine ⟨applyElements_asking req own inputs resetRequired [] (.inr moved), ?_⟩
    obtain ⟨added, results, ids⟩ := applyElements_results p req readable providers resetRequired []
    have fit := fits added ids
    rw [results, List.nil_append]
    simp only [bind, Except.bind]
    cases size : checkResultXml p added with
    | error failure =>
      rw [size] at fit
      cases fit
    | ok size => rfl

structure Asked (applied : PacketApplied) : Prop where
  status : applied.status = .success
  resetRequired : applied.data.resetRequired = true
  state : applied.data.state = .dataApplied

theorem Asked.cleanup {applied : PacketApplied} (asked : Asked applied) : Asked applied.cleanup := by
  simp only [PacketApplied.cleanup, cleanupToken]
  split <;> exact ⟨asked.status, asked.resetRequired, asked.state⟩

section

variable (box : MailBox) (certs : CertStore) (store : Option PermissionStore) (auth : AuthState)
  {settings : SettingsState}

theorem applyLoaded_asking {internal : InternalData} {data : Packet} {applied : PacketApplied}
    (own : Own p svc settings.providers)
    (safe : ∀ updated list, readDocument p internal data.payloadText = .ok (updated, list) →
      SafeElements p settings.providers list.children)
    (applies : applyLoaded p box certs store auth settings internal data = applied)
    (moved : RebootMoved settings.providers applied.settings.providers) : Asked applied := by
  rw [← applies] at moved ⊢
  rw [applyLoaded, validateAndAuthenticateSettings] at moved ⊢
  generalize checkAuthAndGetToken p certs auth data = answer at moved ⊢
  obtain ⟨status, token, after⟩ := answer
  cases status with
  | error code =>
    rw [updateSettingsResult_providers] at moved
    exact absurd moved (not_rebootMoved_refl _)
  | success =>
    simp only at moved ⊢
    have asking := applySettings_asking ⟨store, after.getIdentityProperties token⟩ internal data.payloadText own safe
      data.resetRequired
    have text : Packet.payloadText { data with state := .dataAuthenticated, authToken := token } =
      data.payloadText := rfl
    rw [text] at moved ⊢
    generalize applySettings p ⟨store, after.getIdentityProperties token⟩ internal data.payloadText
      settings.providers data.resetRequired = applied at asking moved ⊢
    obtain ⟨left, resetRequired, outcome⟩ := applied
    cases outcome with
    | error failure =>
      rw [updateSettingsResult_providers] at moved
      cases (asking moved).2
    | ok done =>
      rw [updateSettingsResult_providers] at moved
      exact ⟨rfl, (asking moved).1, rfl⟩

/-- A safe settings packet that changed a value that needs a reboot asks for the reboot. -/
theorem applyNewSettingsPacket_asking {data : Packet} {applied : PacketApplied} (own : Own p svc settings.providers)
    (safe : ∀ updated list,
      readDocument p (InternalData.loadOrInit p settings.flash) data.payloadText = .ok (updated, list) →
      SafeElements p settings.providers list.children)
    (applies : applyNewSettingsPacket p box certs store auth settings data = applied)
    (moved : RebootMoved settings.providers applied.settings.providers) : Asked applied := by
  rw [← applies] at moved ⊢
  rw [applyNewSettingsPacket] at moved ⊢
  apply Asked.cleanup
  simp only [PacketApplied.cleanup] at moved
  split at moved
  · exact absurd moved (not_rebootMoved_refl _)
  · rename_i present
    rw [if_neg present]
    cases validated : validateSettingsPacket data with
    | error code =>
      rw [validated] at moved
      exact absurd moved (not_rebootMoved_refl _)
    | success =>
      rw [validated] at moved
      exact applyLoaded_asking box certs store auth own safe rfl moved

end

end

end SettingsState

end Dfci
