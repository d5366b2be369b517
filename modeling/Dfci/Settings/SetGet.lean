import Dfci.Settings.Access
import Dfci.Settings.GroupSet

/-! # Reading back what was set

The providers of strings, of the certificate and of the asset tag keep their values in variables. Get falls back on a
default where there is no variable; Set compares the size that Get reports, and then reads the variable itself. -/

namespace Dfci

namespace ProviderServices

def oneByte (value : Byte) (size : Nat) : GetAnswer :=
  if size < 1 then ⟨.bufferTooSmall, 1, []⟩ else ⟨.success, 1, [value]⟩

/-- `DfciSettingsGetDefault`, `DfciAssetTagSettingGetDefault` and `DfciWpbtSettingGetDefault` -/
def getDefault (setting : OwnSetting) (size : Nat) : GetAnswer :=
  match setting.type with
  | .cert => ⟨.success, 0, []⟩
  | .enable => oneByte 1 size
  | _ => oneByte 0 size

def InVariable (setting : OwnSetting) : Prop :=
  setting ∈ [OwnSetting.recoveryUrl, .bootstrapUrl, .httpsCert, .registrationId, .tenantId, .friendlyName, .tenantName,
    .assetTag]

section

variable (svc : ProviderServices)

/-- `DfciSettingsGet`, `DfciAssetTagSettingGet` and `DfciWpbtSettingGet` -/
def variableGet (setting : OwnSetting) (current : List Byte) (size : Nat) : GetAnswer :=
  match svc.readVariable setting current size with
  | .ok value => ⟨.success, value.length, value⟩
  | .error status =>
    if status = .notFound then getDefault setting size
    else ⟨status, if status = .bufferTooSmall then current.length else size, []⟩

/-- `GetSettingValue` of each provider, where the password store tells whether there is a password. -/
def get (isPasswordSet : List Byte → Bool) : OwnSetting → List Byte → Nat → GetAnswer
  | .password => fun current size => oneByte (if isPasswordSet current then 1 else 0) size
  | .virtualization => fun _ size => oneByte 1 size
  | .sample => fun current size => oneByte (current.headD 0) size
  | setting => svc.variableGet setting

/-- `GetSettingValue` of the provider with an id. -/
def getAnswer (isPasswordSet : List Byte → Bool) (id : SettingId) (current : List Byte) (size : Nat) : GetAnswer :=
  match OwnSetting.all.find? fun setting => setting.id = id with
  | some setting => svc.get isPasswordSet setting current size
  | none => ⟨.unsupported, size, []⟩

/-- `DfciSettingsSetDefault` and `DfciAssetTagSettingSetDefault`. The buffer has room for the default. -/
def setDefault (setting : OwnSetting) (current : List Byte) : Answer :=
  let default := getDefault setting 1
  match default.status with
  | .error code => (.error code, 0, current)
  | .success => svc.set setting 0 default.written current

def GetAnswer.Proper (size : Nat) (answer : GetAnswer) : Prop :=
  answer.written.length ≤ size ∧ (answer.status = .success → answer.size = answer.written.length)

theorem proper_oneByte (value : Byte) (size : Nat) : GetAnswer.Proper size (oneByte value size) := by
  rw [oneByte]
  split
  · exact ⟨Nat.zero_le _, fun succeeds => by cases succeeds⟩
  · rename_i room
    exact ⟨Nat.not_lt.mp room, fun _ => rfl⟩

theorem proper_variableGet (setting : OwnSetting) (current : List Byte) (size : Nat) :
    GetAnswer.Proper size (svc.variableGet setting current size) := by
  rw [variableGet]
  split
  · rename_i value read
    obtain ⟨rfl, _, room⟩ := svc.readVariable_ok read
    exact ⟨room, fun _ => rfl⟩
  · rename_i status read
    obtain ⟨code, rfl⟩ := svc.readVariable_error read
    split
    · rw [getDefault]
      split
      · exact ⟨Nat.zero_le _, fun _ => rfl⟩
      · exact proper_oneByte ..
      · exact proper_oneByte ..
    · exact ⟨Nat.zero_le _, fun succeeds => by cases succeeds⟩

theorem proper_getAnswer (isPasswordSet : List Byte → Bool) (id : SettingId) (current : List Byte) (size : Nat) :
    GetAnswer.Proper size (svc.getAnswer isPasswordSet id current size) := by
  rw [getAnswer]
  split
  · rename_i setting _
    cases setting with
    | password | virtualization | sample => exact proper_oneByte ..
    | _ => exact svc.proper_variableGet ..
  · exact ⟨Nat.zero_le _, fun succeeds => by cases succeeds⟩

def getSettingValue (isPasswordSet : List Byte → Bool) : GetSettingValue where
  answer := svc.getAnswer isPasswordSet
  fits id value size := (svc.proper_getAnswer isPasswordSet id value size).1
  sized id value size := (svc.proper_getAnswer isPasswordSet id value size).2

theorem getSettingValue_id (isPasswordSet : List Byte → Bool) (setting : OwnSetting) :
    (svc.getSettingValue isPasswordSet).answer setting.id = svc.get isPasswordSet setting := by
  funext current size
  simp only [getSettingValue, getAnswer, OwnSetting.find?_id]

structure Works (setting : OwnSetting) : Prop where
  reads : svc.getVariable setting = .success
  writes : ∀ data, svc.setVariable setting data = .success

def valueOf (setting : OwnSetting) (current : List Byte) : List Byte :=
  if current = [] then (getDefault setting 1).written else current

end

section

variable {svc : ProviderServices} {setting : OwnSetting} {current : List Byte}

theorem InVariable.type (inVariable : InVariable setting) : setting.type = .cert ∨ setting.type = .string := by
  cases setting <;> first | exact .inl rfl | exact .inr rfl | simp [InVariable] at inVariable

theorem get_eq (inVariable : InVariable setting) (isPasswordSet : List Byte → Bool) :
    svc.get isPasswordSet setting = svc.variableGet setting := by
  cases setting with
  | wpbt | password | virtualization | sample => simp [InVariable] at inVariable
  | recoveryUrl | bootstrapUrl | httpsCert | registrationId | tenantId | friendlyName | tenantName | assetTag => rfl

theorem variableGet_eq (works : svc.Works setting) (inVariable : InVariable setting) {size : Nat}
    (room : (valueOf setting current).length ≤ size) : svc.variableGet setting current size =
      ⟨.success, (valueOf setting current).length, valueOf setting current⟩ := by
  rw [valueOf] at room ⊢
  by_cases absent : current = []
  · rw [if_pos absent] at room ⊢
    rw [variableGet, readVariable, if_pos absent]
    simp only [reduceIte]
    rcases inVariable.type with type | type
    · simp [getDefault, type]
    · have enough : 1 ≤ size := by simpa [getDefault, type, oneByte] using room
      simp [getDefault, type, oneByte, Nat.not_lt.mpr enough]
  · rw [if_neg absent] at room ⊢
    simp [variableGet, readVariable, absent, works.reads, Nat.not_lt.mpr room]

def Accepts (svc : ProviderServices) (setting : OwnSetting) (new : List Byte) : Prop :=
  if setting = .assetTag then svc.validateAssetTagValue new = .success else new.length ≤ settingMaximumSize

theorem set_eq_setUnlessSame {new : List Byte} (inVariable : InVariable setting) (accepts : svc.Accepts setting new)
    (flags : SettingFlags) (current : List Byte) :
    svc.set setting flags new current = svc.setUnlessSame setting flags new current := by
  cases setting with
  | assetTag =>
    rw [Accepts, if_pos rfl] at accepts
    rw [set, dfciAssetTagSettingSet, accepts]
  | wpbt | password | virtualization | sample => simp [InVariable] at inVariable
  | recoveryUrl | bootstrapUrl | httpsCert | registrationId | tenantId | friendlyName | tenantName =>
    rw [Accepts, if_neg (by decide)] at accepts
    rw [set, dfciSettingsSet, if_neg (Nat.not_lt.mpr accepts)]

def Shaped (setting : OwnSetting) (new : List Byte) : Prop :=
  setting.type = .cert ∨ ∃ text : AsciiString, new = text.toMemory

/-- Where there is no variable, Set takes the size from the default and then asks for the variable itself. -/
theorem setUnlessSame_absent (works : svc.Works setting) (inVariable : InVariable setting) {new : List Byte}
    (shaped : Shaped setting new) (flags : SettingFlags) : svc.setUnlessSame setting flags new [] =
      if new = valueOf setting [] then
        if setting.type = .cert then alreadySet flags [] else (.notFound, flags, [])
      else (.success, flags, new) := by
  have stores : new ≠ [] → svc.storeVariable setting flags new [] = (.success, flags, new) := by
    intro something
    simp [storeVariable, something, works.writes]
  rcases inVariable.type with type | type
  · by_cases nothing : new = []
    · simp [setUnlessSame, currentSize, readVariable, valueOf, getDefault, type, nothing]
    · have stored := stores nothing
      have some : 0 ≠ new.length := (List.length_pos_of_ne_nil nothing).ne
      simp [setUnlessSame, currentSize, readVariable, valueOf, getDefault, type, nothing, stored, some]
  · rcases shaped with cert | ⟨text, rfl⟩
    · rw [type] at cert
      cases cert
    · have something : text.toMemory ≠ [] := by simp [AsciiString.toMemory]
      have stored := stores something
      by_cases empty : text.chars = []
      · simp [setUnlessSame, currentSize, readVariable, valueOf, getDefault, oneByte, type, AsciiString.toMemory, empty]
      · have differ : text.toMemory ≠ [0#8] := by
          intro same
          exact empty (List.length_eq_zero_iff.mp (by simpa using congrArg List.length same))
        simp [setUnlessSame, currentSize, readVariable, valueOf, getDefault, oneByte, type, something, differ, stored,
          empty]

theorem setUnlessSame_present (works : svc.Works setting) (present : current ≠ []) (new : List Byte)
    (flags : SettingFlags) : svc.setUnlessSame setting flags new current =
      if new = current then alreadySet flags current else (.success, flags, new) := by
  have some : 0 < current.length := List.length_pos_of_ne_nil present
  have stored : svc.storeVariable setting flags new current = (.success, flags, new) := by
    simp [storeVariable, present, works.writes]
  have size : svc.currentSize setting current = .ok current.length := by
    simp [currentSize, readVariable, present, works.reads, some]
  have read : svc.readVariable setting current current.length = .ok current := by
    simp [readVariable, present, works.reads]
  rw [setUnlessSame, size]
  simp only
  rw [if_neg fun both => present (List.length_eq_zero_iff.mp both.1), read]
  by_cases same : new = current
  · simp [same, present]
  · simp only [stored, if_neg same, if_neg (Ne.symm same), ite_self]

/-- What Set does: it tells that the value is set already where Get reports it, except that it fails on the default of a
string that has no variable. -/
theorem set_eq (works : svc.Works setting) (inVariable : InVariable setting) {new : List Byte}
    (accepts : svc.Accepts setting new) (shaped : Shaped setting new) (flags : SettingFlags) (current : List Byte) :
    svc.set setting flags new current =
      if new = valueOf setting current then
        if current = [] ∧ setting.type = .string then (.notFound, flags, current) else alreadySet flags current
      else (.success, flags, new) := by
  rw [set_eq_setUnlessSame inVariable accepts]
  by_cases absent : current = []
  · subst absent
    rw [setUnlessSame_absent works inVariable shaped]
    rcases inVariable.type with type | type <;> simp [type]
  · rw [setUnlessSame_present works absent]
    simp [valueOf, absent]

theorem valueOf_absent (string : setting.type = .string) : valueOf setting [] = [0] := by
  simp [valueOf, getDefault, string, oneByte]

/-- `DfciSettingsSetDefault` and `DfciAssetTagSettingSetDefault` fail on a string that has no variable. -/
theorem setDefault_success (works : svc.Works setting) (inVariable : InVariable setting) (current : List Byte) :
    (svc.setDefault setting current).1 = .success ↔ ¬ (current = [] ∧ setting.type = .string) := by
  have default : (getDefault setting 1).status = .success ∧ svc.Accepts setting (getDefault setting 1).written ∧
      Shaped setting (getDefault setting 1).written := by
    have isEmpty : (AsciiString.ofString "").toMemory = [0] := by decide
    cases setting with
    | wpbt | password | virtualization | sample => simp [InVariable] at inVariable
    | httpsCert => exact ⟨rfl, Nat.zero_le _, .inl rfl⟩
    | assetTag =>
      refine ⟨rfl, ?_, .inr ⟨_, isEmpty.symm⟩⟩
      simp [Accepts, validateAssetTagValue, getDefault, oneByte, OwnSetting.type]
    | recoveryUrl | bootstrapUrl | registrationId | tenantId | friendlyName | tenantName =>
      refine ⟨rfl, ?_, .inr ⟨_, isEmpty.symm⟩⟩
      simp [Accepts, getDefault, oneByte, OwnSetting.type, settingMaximumSize]
  rw [setDefault]
  simp only [default.1]
  rw [set_eq works inVariable default.2.1 default.2.2]
  split
  · split
    · rename_i fails
      simp [fails]
    · rename_i succeeds
      exact iff_of_true rfl succeeds
  · rename_i differ
    refine iff_of_true rfl ?_
    rintro ⟨rfl, string⟩
    exact differ (by simp [valueOf])

end

end ProviderServices

namespace Providers

open FirstMatch ProviderServices

inductive Admissible (p : Platform) (svc : ProviderServices) : OwnSetting → AsciiString → List Byte → Prop
  | string {setting : OwnSetting} {text : AsciiString} (type : setting.type = .string)
    (short : text.chars.length ≤ maxValueSize) (accepts : svc.Accepts setting text.toMemory) :
    Admissible p svc setting text text.toMemory
  | certificate {text : AsciiString} {bytes : List Byte} (short : text.chars.length ≤ maxValueSize)
    (decodes : p.base64Decode text.chars = .ok bytes) (accepts : svc.Accepts .httpsCert bytes) :
    Admissible p svc .httpsCert text bytes

section

variable (p : Platform) (get : GetSettingValue) (req : WriteRequest)

def Reads (providers : Providers) (id : SettingId) (type : SettingType) (value : List Byte) : Prop :=
  ∀ (token : Option WriteRequest) (localValue : Byte) (size : Nat) (flags : Option SettingFlags), value.length ≤ size →
    (internalSystemSettingAccessGet p get token localValue providers id type size flags).seen = (.success, value)

structure SetGetLaw (providers : Providers) (id : SettingId) (type : SettingType) (text : AsciiString)
    (bytes : List Byte) (flags : SettingFlags) : Prop where
  succeeds : (setSettingFromAscii p req providers id text flags).status = .success
  reads : Reads p get (setSettingFromAscii p req providers id text flags).providers id type bytes
  already : (setSettingFromAscii p req providers id text flags).flags &&& SettingFlags.outAlreadySet ≠ 0 ↔
    Reads p get providers id type bytes

end

section

variable {p : Platform} {svc : ProviderServices} {get : GetSettingValue} {req : WriteRequest}
  {providers : Providers} {id : SettingId} {provider : SettingProvider} {setting : OwnSetting} {text : AsciiString}
  {bytes : List Byte}

section

variable (admissible : Admissible p svc setting text bytes)
include admissible

theorem Admissible.inVariable : InVariable setting := by
  cases admissible with
  | string type =>
    cases setting with
    | wpbt | password | virtualization | sample | httpsCert => cases type
    | recoveryUrl | bootstrapUrl | registrationId | tenantId | friendlyName | tenantName | assetTag => simp [InVariable]
  | certificate => simp [InVariable]

theorem Admissible.accepts : svc.Accepts setting bytes := by
  cases admissible <;> assumption

theorem Admissible.shaped : Shaped setting bytes := by
  cases admissible with
  | string => exact .inr ⟨text, rfl⟩
  | certificate => exact .inl rfl

/-- An empty certificate is refused before it reaches its provider. -/
theorem Admissible.valueFromAscii : valueFromAscii p setting.type text =
      if setting.type = .cert ∧ bytes = [] then .error .invalidParameter else .ok bytes := by
  cases admissible with
  | string type short => simp [Providers.valueFromAscii, type, Nat.not_lt.mpr short]
  | certificate short decodes =>
    rw [OwnSetting.type, Providers.valueFromAscii, List.take_of_length_le short, decodes]
    cases bytes <;> simp

theorem Admissible.ne_nil (notEmpty : ¬ (setting.type = .cert ∧ bytes = [])) : bytes ≠ [] := by
  cases admissible with
  | string => simp [AsciiString.toMemory]
  | certificate => exact fun nothing => notEmpty ⟨rfl, nothing⟩

theorem Admissible.eq_zero_iff (string : setting.type = .string) : bytes = [0] ↔ text.chars = [] := by
  cases admissible with
  | string =>
    constructor
    · intro same
      exact List.length_eq_zero_iff.mp (by simpa using congrArg List.length same)
    · intro noText
      simp [AsciiString.toMemory, noText]
  | certificate => cases string

end

theorem findProviderById_setValue (found : providers.findProviderById p id = some provider) (value : List Byte) :
    (providers.setValue provider value).findProviderById p id = some { provider with value := value } := by
  obtain ⟨realId, isReal, search⟩ := Option.bind_eq_some_iff.mp found
  have matching := List.find?_some search
  -- the first provider that matches the id is the first with its own id
  have sameFirst : ∀ other : SettingProvider, decide (other.id = provider.id) = true →
      sameSettingId other.id realId = true := by
    intro other same
    rw [of_decide_eq_true same]
    exact matching
  have stays : ∀ other : SettingProvider, sameSettingId { other with value := value }.id realId =
      sameSettingId other.id realId := fun _ => rfl
  rw [findProviderById, isReal, Option.bind_some, setValue]
  simp only
  rw [modifyFirst_of_imp search (decide_eq_true rfl) sameFirst, find?_modifyFirst stays, search, Option.map_some]

/-- With the permission, what the call leaves is what the provider answers. -/
theorem setSettingFromAscii_found (own : Own p svc providers)
    (found : providers.findProviderById p id = some provider)
    (authorised : req.hasWritePermissions providers.groups provider.id = .ok true)
    (textual : provider.type = .string ∨ provider.type = .cert)
    (converted : valueFromAscii p provider.type text = .ok bytes)
    (notifies : ∀ value flags, p.settingChangedNotification provider.id value flags = .success)
    (flags : SettingFlags) :
    let answer := p.setSettingValue provider.id flags bytes provider.value
    setSettingFromAscii p req providers id text flags =
      ⟨answer.1, answer.2.1, providers.setValue provider answer.2.2⟩ := by
  have named := chars_ne_nil_of_own own found
  have isText : ¬ (provider.type ≠ .string ∧ provider.type ≠ .cert ∧ text.chars = []) := by
    rcases textual with type | type <;> simp [type]
  simp only [setSettingFromAscii, if_neg named, found, setIndividualSettings, if_neg isText, converted,
    internalSystemSettingAccessSet, findProviderById_again found, accessSetProvider, authorised, ne_eq, not_true_eq_false,
    if_false, notifies, ite_self]
  split <;> (rename_i answered; rw [answered])

section

variable {isPasswordSet : List Byte → Bool}
  (gets : ∀ setting : OwnSetting, get.answer setting.id = svc.get isPasswordSet setting)
  (works : svc.Works setting)
include gets works

theorem reads_iff (inVariable : InVariable setting) (found : providers.findProviderById p id = some provider)
    (isSetting : provider.registration = setting.registration) {value : List Byte} :
    Reads p get providers id setting.type value ↔ value = valueOf setting provider.value := by
  have sameId : provider.id = setting.id := congrArg Prod.fst isSetting
  have sameType : provider.type = setting.type := congrArg (fun registration => registration.2.1) isSetting
  have answers : ∀ token localValue size flags, (valueOf setting provider.value).length ≤ size →
      (internalSystemSettingAccessGet p get token localValue providers id setting.type size flags).seen =
        (.success, valueOf setting provider.value) := by
    intro token localValue size flags room
    rw [internalSystemSettingAccessGet, found]
    simp only [accessGetProvider, sameType, ne_eq, not_true_eq_false, if_false, sameId, gets, get_eq inVariable,
      variableGet_eq works inVariable room, SettingGet.seen]
  constructor
  · intro reads
    have enough := Nat.le_add_right value.length (valueOf setting provider.value).length
    have asked := reads none 0 _ none enough
    rw [answers none 0 _ none (Nat.le_add_left _ _)] at asked
    exact (Prod.mk.inj asked).2.symm
  · rintro rfl
    exact answers

/-- A value that reaches its provider keeps the law, except for the default of a string that has no variable. -/
theorem setGetLaw_found (own : Own p svc providers) (found : providers.findProviderById p id = some provider)
    (isSetting : provider.registration = setting.registration)
    (authorised : req.hasWritePermissions providers.groups provider.id = .ok true)
    (notifies : ∀ value flags, p.settingChangedNotification provider.id value flags = .success)
    (admissible : Admissible p svc setting text bytes) (something : bytes ≠ [])
    {flags : SettingFlags} (clear : flags &&& SettingFlags.outAlreadySet = 0) :
    SetGetLaw p get req providers id setting.type text bytes flags ↔
      ¬ (provider.value = [] ∧ setting.type = .string ∧ bytes = valueOf setting []) := by
  have sameId : provider.id = setting.id := congrArg Prod.fst isSetting
  have sameType : provider.type = setting.type := congrArg (fun registration => registration.2.1) isSetting
  have inVariable := admissible.inVariable
  have readsIff : ∀ {providers : Providers} {provider : SettingProvider},
      providers.findProviderById p id = some provider → provider.registration = setting.registration →
        (Reads p get providers id setting.type bytes ↔ bytes = valueOf setting provider.value) :=
    fun found isSetting => reads_iff gets works inVariable found isSetting
  have converted : Providers.valueFromAscii p provider.type text = .ok bytes := by
    rw [sameType, admissible.valueFromAscii, if_neg fun both => something both.2]
  have done := setSettingFromAscii_found own found authorised (sameType ▸ inVariable.type.symm) converted notifies flags
  simp only [sameId, own.sets, set_eq works inVariable admissible.accepts admissible.shaped] at done
  by_cases same : bytes = valueOf setting provider.value
  · rw [if_pos same] at done
    by_cases default : provider.value = [] ∧ setting.type = .string
    · rw [if_pos default] at done
      refine iff_of_false (fun law => ?_) fun holds => holds ⟨default.1, default.2, default.1 ▸ same⟩
      have succeeds := law.succeeds
      rw [done] at succeeds
      cases succeeds
    · rw [if_neg default] at done
      refine iff_of_true ⟨?_, ?_, ?_⟩ fun both => default ⟨both.1, both.2.1⟩
      · rw [done]
        rfl
      · rw [done]
        exact (readsIff (findProviderById_setValue found _) isSetting).mpr same
      · rw [done]
        refine iff_of_true ?_ ((readsIff found isSetting).mpr same)
        exact or_outAlreadySet flags
  · rw [if_neg same] at done
    refine iff_of_true ⟨?_, ?_, ?_⟩ fun both => same (both.1 ▸ both.2.2)
    · rw [done]
    · rw [done]
      refine (readsIff (findProviderById_setValue found bytes) isSetting).mpr ?_
      rw [valueOf, if_neg something]
    · rw [done]
      exact iff_of_false (fun told => told clear) fun reads => same ((readsIff found isSetting).mp reads)

/-- For every text of a setting and every state of its variable: the law holds unless the text is an empty certificate,
or the empty string for a setting that has no variable; and there the default of a string cannot be set. -/
theorem setGetLaw_iff (own : Own p svc providers) (found : providers.findProviderById p id = some provider)
    (isSetting : provider.registration = setting.registration)
    (authorised : req.hasWritePermissions providers.groups provider.id = .ok true)
    (notifies : ∀ value flags, p.settingChangedNotification provider.id value flags = .success)
    (admissible : Admissible p svc setting text bytes)
    {flags : SettingFlags} (clear : flags &&& SettingFlags.outAlreadySet = 0) :
    (SetGetLaw p get req providers id setting.type text bytes flags ↔
      (setting.type = .cert → bytes ≠ []) ∧ (setting.type = .string → text.chars = [] → provider.value ≠ [])) ∧
    ((svc.setDefault setting provider.value).1 = .success ↔ (setting.type = .string → provider.value ≠ [])) := by
  have sameType : provider.type = setting.type := congrArg (fun registration => registration.2.1) isSetting
  refine ⟨?_, ?_⟩
  · by_cases empty : setting.type = .cert ∧ bytes = []
    · -- the certificate is refused where its text is decoded
      refine iff_of_false (fun law => ?_) fun holds => holds.1 empty.1 empty.2
      have refused : Providers.valueFromAscii p provider.type text = .error .invalidParameter := by
        rw [sameType, admissible.valueFromAscii, if_pos empty]
      have isText : ¬ (provider.type ≠ .string ∧ provider.type ≠ .cert ∧ text.chars = []) := by
        simp [sameType, empty.1]
      have succeeds := law.succeeds
      rw [setSettingFromAscii, if_neg (chars_ne_nil_of_own own found), found] at succeeds
      simp only [setIndividualSettings, if_neg isText, refused] at succeeds
      cases succeeds
    · have something := admissible.ne_nil empty
      rw [setGetLaw_found gets works own found isSetting authorised notifies admissible something clear]
      constructor
      · intro holds
        refine ⟨fun _ => something, fun string noText absent => holds ⟨absent, string, ?_⟩⟩
        rw [valueOf_absent string]
        exact (admissible.eq_zero_iff string).mpr noText
      · rintro ⟨_, holds⟩ ⟨absent, string, default⟩
        rw [valueOf_absent string] at default
        exact holds string ((admissible.eq_zero_iff string).mp default) absent
  · rw [setDefault_success works admissible.inVariable]
    tauto

end

end

def oneSetting (setting : OwnSetting) (value : List Byte) : Providers :=
  registered ownPlatform [] [ownProvider setting value]

def getOwn : GetSettingValue := ProviderServices.getSettingValue {} fun value => value ≠ []

/-- A name is given to a device that has none. -/
theorem setGetLaw_friendlyName :
    SetGetLaw ownPlatform getOwn localRequest (oneSetting .friendlyName []) OwnSetting.friendlyName.id .string
      (.ofString "Tablet") (AsciiString.ofString "Tablet").toMemory 0 := by
  have evaluated : (oneSetting .friendlyName []).list = [ownProvider .friendlyName []] ∧
      (oneSetting .friendlyName []).findProviderById ownPlatform OwnSetting.friendlyName.id =
        some (ownProvider .friendlyName []) ∧
      localRequest.hasWritePermissions (oneSetting .friendlyName []).groups OwnSetting.friendlyName.id = .ok true := by
    decide +kernel
  obtain ⟨list, found, authorised⟩ := evaluated
  have own : Own ownPlatform {} (oneSetting .friendlyName []) := by
    refine ⟨fun setting => ProviderServices.setSettingValue_id {} setting, ?_⟩
    rw [list, List.forall_mem_singleton]
    exact ⟨.friendlyName, rfl⟩
  have admissible : Admissible ownPlatform {} .friendlyName (.ofString "Tablet")
      (AsciiString.ofString "Tablet").toMemory := by
    refine .string rfl (by decide) ?_
    rw [Accepts, if_neg (by decide)]
    decide
  have clear : (0 : SettingFlags) &&& SettingFlags.outAlreadySet = 0 := by decide
  have law := setGetLaw_iff (ProviderServices.getSettingValue_id {} fun value => value ≠ []) ⟨rfl, fun _ => rfl⟩ own found
    rfl authorised (fun _ _ => rfl) admissible clear
  refine law.1.mpr ⟨by decide, fun _ noText => ?_⟩
  revert noText
  decide

/-- The empty string where there is no variable, which is the default, and the empty certificate. -/
theorem setGetLaw_empty_refused :
    ¬ SetGetLaw ownPlatform getOwn localRequest (oneSetting .friendlyName []) OwnSetting.friendlyName.id .string
        (.ofString "") [0] 0 ∧
      ¬ SetGetLaw ownPlatform getOwn localRequest (oneSetting .httpsCert [1]) OwnSetting.httpsCert.id .cert
        (.ofString "") [] 0 ∧ (ProviderServices.setDefault {} .friendlyName []).1 = .notFound := by
  have evaluated : (setSettingFromAscii ownPlatform localRequest (oneSetting .friendlyName []) OwnSetting.friendlyName.id
        (.ofString "") 0).status = .notFound ∧
      (setSettingFromAscii ownPlatform localRequest (oneSetting .httpsCert [1]) OwnSetting.httpsCert.id
        (.ofString "") 0).status = .invalidParameter := by
    decide +kernel
  refine ⟨fun law => ?_, fun law => ?_, rfl⟩
  · have succeeds := law.succeeds
    rw [evaluated.1] at succeeds
    cases succeeds
  · have succeeds := law.succeeds
    rw [evaluated.2] at succeeds
    cases succeeds

end Providers

end Dfci
