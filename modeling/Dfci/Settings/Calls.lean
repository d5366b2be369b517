import Dfci.Settings.NoAuthority

/-! # The calls of `SetSettingValue`

Each function that sets settings has beside it the list of the providers it calls, in order. The providers it leaves
are those that these calls leave. -/

namespace Dfci

open FirstMatch

/-- A call of a provider's `SetSettingValue`, on behalf of a request. -/
structure SetCall where
  request : WriteRequest
  provider : SettingProvider
  value : List Byte
  flags : SettingFlags

def SetCall.Authorised (groups : List Group) (call : SetCall) : Prop :=
  call.request.hasWritePermissions groups call.provider.id = .ok true

instance (groups : List Group) (call : SetCall) : Decidable (call.Authorised groups) :=
  inferInstanceAs (Decidable (_ = _))

def SetCall.kept (p : Platform) (call : SetCall) : List Byte :=
  (p.setSettingValue call.provider.id call.flags call.value call.provider.value).2.2

namespace Providers

def replay (p : Platform) (providers : Providers) (calls : List SetCall) : Providers :=
  calls.foldl (fun providers call => providers.setValue call.provider (call.kept p)) providers

@[simp] theorem replay_nil (p : Platform) (providers : Providers) : providers.replay p [] = providers := rfl

theorem replay_append (p : Platform) (providers : Providers) (first second : List SetCall) :
    providers.replay p (first ++ second) = (providers.replay p first).replay p second :=
  List.foldl_append

section

variable (p : Platform) (req : WriteRequest)

/-- The call at the end of `InternalSystemSettingAccessSet`. -/
def accessSetProviderCalls (providers : Providers) (provider : SettingProvider) (id : SettingId) (type : SettingType)
    (value : List Byte) (flags : SettingFlags) : List SetCall :=
  if req.hasWritePermissions providers.groups id = .ok true ∧ type = provider.type then
    [⟨req, provider, value, flags⟩]
  else
    []

def accessSetMemberCalls (providers : Providers) (id : SettingId) (type : SettingType) (value : List Byte)
    (flags : SettingFlags) : List SetCall :=
  match providers.findProviderById p id with
  | none => []
  | some provider => accessSetProviderCalls req providers provider id type value flags

def accessSetMembersCalls (type : SettingType) (value : List Byte) :
    List SettingId → SettingFlags → Providers → List SetCall
  | [], _, _ => []
  | id :: ids, flags, providers =>
    let done := accessSetMember p req providers id type value flags
    accessSetMemberCalls p req providers id type value flags ++
      accessSetMembersCalls type value ids done.flags done.providers

def internalSystemSettingAccessSetCalls (providers : Providers) (id : SettingId) (type : SettingType)
    (value : List Byte) (flags : SettingFlags) : List SetCall :=
  match providers.findProviderById p id with
  | some provider => accessSetProviderCalls req providers provider id type value flags
  | none =>
    match findGroup providers.groups id with
    | none => []
    | some group => accessSetMembersCalls p req type value group.members flags providers

def setIndividualSettingsCalls (providers : Providers) (provider : SettingProvider) (value : AsciiString)
    (flags : SettingFlags) : List SetCall :=
  if provider.type ≠ .string ∧ provider.type ≠ .cert ∧ value.chars = [] then
    []
  else
    match valueFromAscii p provider.type value with
    | .error _ => []
    | .ok bytes =>
      internalSystemSettingAccessSetCalls p req providers provider.id provider.type bytes flags

def setMembersFromAsciiCalls (value : AsciiString) : List SettingId → SettingFlags → Providers → List SetCall
  | [], _, _ => []
  | id :: ids, flags, providers =>
    match providers.findProviderById p id with
    | none => []
    | some provider =>
      let done := setIndividualSettings p req providers provider value flags
      setIndividualSettingsCalls p req providers provider value flags ++
        setMembersFromAsciiCalls value ids done.flags done.providers

def setSettingFromAsciiCalls (providers : Providers) (id : SettingId) (value : AsciiString) (flags : SettingFlags) :
    List SetCall :=
  if id.chars = [] then
    []
  else
    match providers.findProviderById p id with
    | some provider => setIndividualSettingsCalls p req providers provider value flags
    | none =>
      match findGroup providers.groups id with
      | none => []
      | some group => setMembersFromAsciiCalls p req value group.members flags providers

end

/-! ## The calls account for what is left -/

section

variable {p : Platform} {req : WriteRequest}

section

variable (providers : Providers) (provider : SettingProvider)

theorem accessSetProvider_replay (id : SettingId) (type : SettingType) (value : List Byte) (flags : SettingFlags) :
    (accessSetProvider p req providers provider id type value flags).providers =
      providers.replay p (accessSetProviderCalls req providers provider id type value flags) := by
  rw [accessSetProvider, accessSetProviderCalls]
  split
  · rename_i status fails
    rw [if_neg (by simp [fails])]
    rfl
  · rename_i denied
    rw [if_neg (by simp [denied])]
    rfl
  · rename_i permitted
    by_cases same : type = provider.type
    · rw [if_neg (by simp [same]), if_pos ⟨permitted, same⟩]
      simp only [replay, List.foldl_cons, List.foldl_nil, SetCall.kept]
      generalize p.setSettingValue provider.id flags value provider.value = answer
      obtain ⟨status, after, kept⟩ := answer
      cases status <;> rfl
    · rw [if_pos same, if_neg fun both => same both.2]
      rfl

theorem accessSetMember_replay (id : SettingId) (type : SettingType) (value : List Byte) (flags : SettingFlags) :
    (accessSetMember p req providers id type value flags).providers =
      providers.replay p (accessSetMemberCalls p req providers id type value flags) := by
  rw [accessSetMember, accessSetMemberCalls]
  cases providers.findProviderById p id with
  | none => rfl
  | some provider => exact accessSetProvider_replay ..

theorem forMembers_replay (type : SettingType) (value : List Byte) (ids : List SettingId) (returnStatus : EfiStatus)
    (flags : SettingFlags) (providers : Providers) :
    (forMembers (fun providers id flags => accessSetMember p req providers id type value flags) ids
        returnStatus flags providers).providers =
      providers.replay p (accessSetMembersCalls p req type value ids flags providers) := by
  induction ids generalizing returnStatus flags providers with
  | nil => rfl
  | cons id ids ih =>
    rw [forMembers, accessSetMembersCalls, replay_append, ← accessSetMember_replay]
    exact ih _ _ _

theorem internalSystemSettingAccessSet_replay (id : SettingId) (type : SettingType) (value : List Byte)
    (flags : SettingFlags) : (internalSystemSettingAccessSet p req providers id type value flags).providers =
      providers.replay p (internalSystemSettingAccessSetCalls p req providers id type value flags) := by
  rw [internalSystemSettingAccessSet, internalSystemSettingAccessSetCalls]
  cases providers.findProviderById p id with
  | some provider => exact accessSetProvider_replay ..
  | none =>
    cases findGroup providers.groups id with
    | none => rfl
    | some group => exact forMembers_replay ..

theorem setIndividualSettings_replay (value : AsciiString) (flags : SettingFlags) :
    (setIndividualSettings p req providers provider value flags).providers =
      providers.replay p (setIndividualSettingsCalls p req providers provider value flags) := by
  rw [setIndividualSettings, setIndividualSettingsCalls]
  split
  · rfl
  · cases valueFromAscii p provider.type value with
    | error status => rfl
    | ok bytes => exact internalSystemSettingAccessSet_replay ..

theorem setMembersFromAscii_replay (value : AsciiString) (ids : List SettingId) (returnStatus : EfiStatus)
    (flags : SettingFlags) (providers : Providers) :
    (setMembersFromAscii p req value ids returnStatus flags providers).providers =
      providers.replay p (setMembersFromAsciiCalls p req value ids flags providers) := by
  induction ids generalizing returnStatus flags providers with
  | nil => rfl
  | cons id ids ih =>
    rw [setMembersFromAscii, setMembersFromAsciiCalls]
    cases providers.findProviderById p id with
    | none => rfl
    | some provider =>
      simp only [replay_append, ← setIndividualSettings_replay]
      exact ih _ _ _

theorem setSettingFromAscii_replay (id : SettingId) (value : AsciiString) (flags : SettingFlags) :
    (setSettingFromAscii p req providers id value flags).providers =
      providers.replay p (setSettingFromAsciiCalls p req providers id value flags) := by
  rw [setSettingFromAscii, setSettingFromAsciiCalls]
  split
  · rfl
  · cases providers.findProviderById p id with
    | some provider => exact setIndividualSettings_replay ..
    | none =>
      cases findGroup providers.groups id with
      | none => rfl
      | some group => exact setMembersFromAscii_replay ..

end

end

end Providers

/-! ## The calls of a settings packet -/

namespace SettingsState

open SettingsXml

section

variable (p : Platform)

def applyElementsCalls (req : WriteRequest) : List XmlNode → Providers → List SetCall
  | [], _ => []
  | element :: elements, providers =>
    match getInputSettings element with
    | .error _ => []
    | .ok (id, value) =>
      Providers.setSettingFromAsciiCalls p req providers id value 0 ++
        if id.chars = [] then []
        else applyElementsCalls req elements
          (Providers.setSettingFromAscii p req providers id value 0).providers

def applySettingsCalls (req : WriteRequest) (internal : InternalData) (xml : List Byte) (providers : Providers) :
    List SetCall :=
  match readDocument p internal xml with
  | .error _ => []
  | .ok (_, list) => applyElementsCalls p req list.children providers

def applyLoadedCalls (certs : CertStore) (store : Option PermissionStore) (auth : AuthState) (settings : SettingsState)
    (internal : InternalData) (data : Packet) : List SetCall :=
  match validateAndAuthenticateSettings p certs auth data with
  | (.error _, _, _) => []
  | (.success, auth, data) =>
    applySettingsCalls p ⟨store, auth.getIdentityProperties data.authToken⟩ internal data.payloadText
      settings.providers

def applyNewSettingsPacketCalls (certs : CertStore) (store : Option PermissionStore) (auth : AuthState)
    (settings : SettingsState) (data : Packet) : List SetCall :=
  if data.state ≠ .dataPresent then
    []
  else
    match validateSettingsPacket data with
    | .error _ => []
    | .success =>
      applyLoadedCalls p certs store auth settings (InternalData.loadOrInit p settings.flash) data

end

section

variable {p : Platform}

theorem applyElements_replay (req : WriteRequest) (elements : List XmlNode) (providers : Providers)
    (resetRequired : Bool) (results : List SettingResult) :
    (applyElements p req elements providers resetRequired results).providers =
      providers.replay p (applyElementsCalls p req elements providers) := by
  induction elements generalizing providers resetRequired results with
  | nil => rfl
  | cons element elements ih =>
    rw [applyElements, applyElementsCalls]
    cases getInputSettings element with
    | error status => rfl
    | ok input =>
      simp only [Providers.replay_append, ← Providers.setSettingFromAscii_replay]
      split
      · rfl
      · exact ih _ _ _

theorem applySettings_replay (req : WriteRequest) (internal : InternalData) (xml : List Byte)
    (providers : Providers) (resetRequired : Bool) :
    (applySettings p req internal xml providers resetRequired).providers =
      providers.replay p (applySettingsCalls p req internal xml providers) := by
  rw [applySettings, applySettingsCalls]
  cases readDocument p internal xml with
  | error failure => rfl
  | ok document => exact applyElements_replay ..

theorem updateSettingsResult_providers (box : MailBox) (internal : InternalData) (settings : SettingsState)
    (data : Packet) : (updateSettingsResult p box internal settings data).1.providers = settings.providers := by
  rw [updateSettingsResult]
  split
  · rfl
  · simp only
    split <;> rfl

section

variable (box : MailBox) (certs : CertStore) (store : Option PermissionStore) (auth : AuthState)
  (settings : SettingsState)

theorem applyLoaded_replay (internal : InternalData) (data : Packet) :
    (applyLoaded p box certs store auth settings internal data).settings.providers =
      settings.providers.replay p (applyLoadedCalls p certs store auth settings internal data) := by
  rw [applyLoaded, applyLoadedCalls]
  generalize validateAndAuthenticateSettings p certs auth data = answer
  obtain ⟨status, after, record⟩ := answer
  cases status with
  | error code => exact updateSettingsResult_providers ..
  | success =>
    simp only [← applySettings_replay _ _ _ _ record.resetRequired]
    split
    · exact updateSettingsResult_providers ..
    · exact updateSettingsResult_providers ..

theorem applyNewSettingsPacket_replay (data : Packet) :
    (applyNewSettingsPacket p box certs store auth settings data).settings.providers =
      settings.providers.replay p (applyNewSettingsPacketCalls p certs store auth settings data) := by
  rw [applyNewSettingsPacketCalls]
  simp only [applyNewSettingsPacket, PacketApplied.cleanup]
  split
  · rfl
  · cases validateSettingsPacket data with
    | error code => rfl
    | success => exact applyLoaded_replay ..

end

end

end SettingsState

end Dfci
