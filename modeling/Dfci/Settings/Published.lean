import Dfci.Permission.CurrentXml
import Dfci.Settings.Access

/-! # The published settings

At the end of a boot the settings manager publishes what all settings are, in a document of the current format and in
one of the first format, where the settings have numbers. The documents are written only if the settings changed since
the last time: the new document of the current format is compared with the published one around the date. -/

namespace Dfci

open ByteFields

/-! ## The document -/

/-- What a document says, apart from the date. -/
structure CurrentSettings where
  lsv : Nat
  settings : List (AsciiString × AsciiString)
  deriving DecidableEq

def CurrentSettings.toXml (document : CurrentSettings) (date lsv : AsciiString) : XmlNode :=
  .node true (.ofString "CurrentSettingsPacket") (.ofString "")
    [(.ofString "xmlns", .ofString "urn:UefiSettings-Schema")]
    [.leaf (.ofString "Date") date,
      .node false (.ofString "Settings") (.ofString "") [] (document.settings.map fun setting =>
        .node false (.ofString "SettingCurrent") (.ofString "") []
          [.leaf (.ofString "Id") setting.1, .leaf (.ofString "Value") setting.2]),
      .leaf (.ofString "LSV") lsv]

/-- Where `<Date>` and `/Date>` are in a text. -/
def dateMarks (text : List Byte) : Option (Option (Nat × Nat)) := do
  let first ← CString.strStr (AsciiString.ofString "<Date>").chars text
  let second ← CString.strStr (AsciiString.ofString "/Date>").chars text
  return first.bind fun start => second.map fun stop => (start, stop)

def aroundDate (text : List Byte) : Option (List Byte × List Byte) :=
  match dateMarks text with
  | some (some marks) => (CString.string (text.drop marks.2)).map fun behind => (text.take marks.1, behind)
  | _ => none

/-- What the manager calls to make a document. The library that prints a tree is not part of this repository. Of a
text that it gives, what stands in front of the date and behind it depends on the rest of the document only. -/
structure PublishServices where
  platform : Platform
  get : GetSettingValue
  /-- `Base64Encode`, and `GetCertInfo` for the thumbprint, if the authentication protocol is there. -/
  base64Encode : List Byte → Except Nat AsciiString
  getCertInfo : Option (List Byte → Except Nat AsciiString)
  /-- `DfciV1NumberFromId` -/
  v1NumberFromId : SettingId → Option AsciiString
  /-- `AsciiSPrint` of the date, and `AsciiValueToStringS`. -/
  dateText : EfiTime → AsciiString
  decimalText : Nat → AsciiString
  xmlTreeToString : XmlNode → Except Nat (List Byte)
  around : CurrentSettings → List Byte × List Byte
  prints : ∀ document date text, xmlTreeToString (document.toXml (dateText date) (decimalText document.lsv)) = .ok text →
    aroundDate text = some (around document)

/-! ## Values as they are published -/

/-- `UINT8 b` after a call of `GetSettingValue` that succeeds. -/
def PublishServices.getByte (svc : PublishServices) (provider : SettingProvider) (initial : Byte) : Option Byte :=
  let answer := svc.get.answer provider.id provider.value 1
  if answer.status.isError then none else some (answer.written.headD initial)

/-- The second call of `GetSettingValue`, with a buffer of the size that the first asked for. -/
def PublishServices.getSized (svc : PublishServices) (provider : SettingProvider) (size : Nat) : Option (List Byte) :=
  if maxAllowableDfciApplyVarSize < size then
    none
  else
    let answer := svc.get.answer provider.id provider.value size
    if answer.status.isError then none else some answer.written

def enableText (value : Byte) : AsciiString :=
  if value = enableInconsistent then .ofString "Inconsistent"
  else if value = 1 then .ofString "Enabled"
  else .ofString "Disabled"

def secureBootKeyText (value : Byte) : AsciiString :=
  if value = 0 then .ofString "MsOnly"
  else if value = 1 then .ofString "MsPlus3rdParty"
  -- only ever an output
  else if value = 3 then .ofString "Custom"
  else .ofString "None"

def usbPortText (value : Byte) : AsciiString :=
  if value = 0xF0 then .ofString "UsbPortHwDisabled"
  else if value = 0 then .ofString "UsbPortEnabled"
  else if value = 0xF1 then .ofString "UsbPortDataDisabled"
  else if value = 0xF2 then .ofString "UsbPortAuthenticated"
  else if value = enableInconsistent then .ofString "Inconsistent"
  else .ofString "UnsupportedValue"

def passwordText (value : Byte) : AsciiString :=
  if value ≠ 0 then .ofString "System Password Set" else .ofString "No System Password"

/-- `ProviderValueAsAscii` of the current value -/
def providerValueAsAscii (svc : PublishServices) (provider : SettingProvider) : Option AsciiString :=
  let asked := svc.get.answer provider.id provider.value 0
  match provider.type with
  | .enable => (svc.getByte provider 0xFF).map enableText
  | .secureBootKeyEnum => (svc.getByte provider 0xFF).map secureBootKeyText
  | .password => (svc.getByte provider 0).map passwordText
  | .usbPortEnum => (svc.getByte provider 0xFF).map usbPortText
  | .string =>
    if asked.status ≠ .bufferTooSmall ∨ asked.size = 0 then
      none
    else
      (svc.getSized provider asked.size).bind fun value => if value.contains 0 then some (.ofMemory value) else none
  | .cert =>
    if asked.size ≠ 0 ∧ asked.status ≠ .bufferTooSmall then
      none
    else if asked.size = 0 then
      some (.ofString "")
    else
      (svc.getSized provider asked.size).bind fun value =>
        svc.getCertInfo.map fun info =>
          match info value with
          | .error _ => .ofString "No Cert information available"
          | .ok thumbprint => thumbprint
  | .binary =>
    if asked.status ≠ .bufferTooSmall ∨ asked.size = 0 then
      none
    else
      (svc.getSized provider asked.size).bind fun value => (svc.base64Encode value).toOption
  | .undefined => none

/-! ## Making the documents -/

/-- A call of `PopulateCurrentSettingsIfNeeded`: the settings as they are, and how the services answer in it. -/
structure PublishCall where
  providers : Providers
  /-- The `_SMID` variable. -/
  internalData : Option Variable
  /-- What the bytes on the stack hold. -/
  stackByte : Byte
  /-- `GetTime`, when the document of the current format or that of the first is made. -/
  getTime : Bool → Except Nat EfiTime
  /-- The error of `GetVariable2`, if the variable cannot be read. -/
  getVariable : Option Nat
  /-- `SetVariable` of the two variables. -/
  setCurrent : EfiStatus
  setV1 : EfiStatus

namespace PublishCall

variable (svc : PublishServices) (call : PublishCall)

def providerSettings (v1Compatible : Bool) : List (AsciiString × AsciiString) :=
  call.providers.list.filterMap fun provider => do
    let value ← providerValueAsAscii svc provider
    let id ← if v1Compatible then svc.v1NumberFromId provider.id else some provider.id
    return (id, value)

def groupText (groupId : SettingId) (type : SettingType) : AsciiString :=
  let got := Providers.internalSystemSettingAccessGet svc.platform svc.get none call.stackByte call.providers
    groupId type 1 none
  if got.status.isError then
    .ofString "Error"
  else
    let value := got.written.headD call.stackByte
    match type with
    | .enable =>
      if value = 0 then .ofString "Disabled"
      else if value = 1 then .ofString "Enabled"
      else if value = enableInconsistent then .ofString "Inconsistent"
      else .ofString "Unknown"
    | .usbPortEnum => usbPortText value
    | _ => .ofString "UnsupportedValue"

def groupType (group : Group) : Except Nat SettingType :=
  match group.members.head?.bind fun id => call.providers.findProviderById svc.platform id with
  | none => .error 14
  | some provider => .ok provider.type

def groupSettings : List Group → Except Nat (List (AsciiString × AsciiString))
  | [] => .ok []
  | group :: groups => do
    let type ← groupType svc call group
    let rest ← groupSettings groups
    return (group.groupId, groupText svc call group.groupId type) :: rest

/-- What `CreateXmlStringFromCurrentSettings` puts into the document. -/
def currentSettings (v1Compatible : Bool) : Except Nat CurrentSettings := do
  let groups ← groupSettings svc call call.providers.groups
  return {
    lsv := (InternalData.persistedVersions call.internalData).2
    settings := providerSettings svc call v1Compatible ++ groups }

end PublishCall

/-- `CreateXmlStringFromCurrentSettings` -/
def createXmlStringFromCurrentSettings (svc : PublishServices) (call : PublishCall) (v1Compatible : Bool) :
    Except Nat (List Byte) := do
  let date ← call.getTime v1Compatible
  let document ← call.currentSettings svc v1Compatible
  svc.xmlTreeToString (document.toXml (svc.dateText date) (svc.decimalText document.lsv))

/-! ## Publishing -/

/-- The published variables: `UEFISettingsCurrent` in the first format, and that of the current format. -/
structure PublishedSettings where
  current : Option (List Byte)
  v1 : Option (List Byte)
  deriving DecidableEq

def sameAroundDate (old new : List Byte) (oldMarks marks : Nat × Nat) : Option Bool :=
  if marks.1 = oldMarks.1 ∧ new.take marks.1 = old.take marks.1 then
    CString.sameString (old.drop oldMarks.2) (new.drop marks.2)
  else
    some false

section

variable (svc : PublishServices) (call : PublishCall)

def writeCurrentSettings (text : List Byte) (published : PublishedSettings) : EfiStatus × PublishedSettings :=
  match call.setCurrent with
  | .error code => (.error code, published)
  | .success =>
    let published := { published with current := some text }
    match createXmlStringFromCurrentSettings svc call true with
    | .error code => (.error code, published)
    | .ok textV1 =>
      match call.setV1 with
      | .error code => (.error code, published)
      | .success => (.success, { published with v1 := some textV1 })

/-- The text that `GetVariable2` finds. -/
def PublishCall.oldText (published : PublishedSettings) : Option (List Byte) :=
  match call.getVariable with
  | none => published.current
  | some _ => none

/-- `PopulateCurrentSettingsIfNeeded`. `none` stands for a read behind the end of a text. -/
def populateCurrentSettingsIfNeeded (published : PublishedSettings) : Option (EfiStatus × PublishedSettings) :=
  match call.oldText published with
  | none =>
    match createXmlStringFromCurrentSettings svc call false with
    | .error code => some (.error code, published)
    | .ok text => some (writeCurrentSettings svc call text published)
  | some old =>
    match dateMarks old with
    | none => none
    | some none => some (.invalidParameter, published)
    | some (some oldMarks) =>
      match createXmlStringFromCurrentSettings svc call false with
      | .error code => some (.error code, published)
      | .ok text =>
        match dateMarks text with
        | none => none
        | some none => some (.invalidParameter, published)
        | some (some marks) =>
          match sameAroundDate old text oldMarks marks with
          | none => none
          | some true => some (.success, published)
          | some false => some (writeCurrentSettings svc call text published)

end

/-! ## What is published when it succeeds -/

theorem dateMarks_eq_some {text : List Byte} {marks : Nat × Nat} (found : dateMarks text = some (some marks)) :
    marks.1 < text.length := by
  simp only [dateMarks, Option.bind_eq_bind, Option.bind_eq_some_iff, Option.pure_def, Option.some.injEq] at found
  obtain ⟨_, first, _, _, start, rfl, isMarks⟩ := found
  obtain ⟨_, _, rfl⟩ := Option.map_eq_some_iff.mp isMarks
  exact CString.strStr_lt first

theorem aroundDate_eq_some {text : List Byte} {around : List Byte × List Byte} :
    aroundDate text = some around ↔ ∃ marks, dateMarks text = some (some marks) ∧ text.take marks.1 = around.1 ∧
      CString.Holds (text.drop marks.2) around.2 := by
  rw [aroundDate]
  cases found : dateMarks text with
  | none => simp
  | some marks =>
    cases marks with
    | none => simp
    | some marks =>
      simp only [Option.map_eq_some_iff, CString.string_eq_some, Option.some.injEq, exists_eq_left']
      constructor
      · intro parts
        obtain ⟨behind, holds, rfl⟩ := parts
        exact ⟨rfl, holds⟩
      · intro parts
        exact ⟨around.2, parts.2, Prod.ext parts.1 rfl⟩

/-- The comparison finds out whether the old text says the same around its date. It runs off the old text if that ends
within what the new one says. -/
theorem sameAroundDate_eq {old text : List Byte} {oldMarks marks : Nat × Nat} {around : List Byte × List Byte}
    (oldFound : dateMarks old = some (some oldMarks)) (found : dateMarks text = some (some marks))
    (isAround : aroundDate text = some around) :
    (sameAroundDate old text oldMarks marks = some true ↔ aroundDate old = some around) ∧
      (sameAroundDate old text oldMarks marks = none ↔
        old.take oldMarks.1 = around.1 ∧ old.drop oldMarks.2 <+: around.2) := by
  obtain ⟨_, isMarks, front, behind⟩ := aroundDate_eq_some.mp isAround
  rw [found] at isMarks
  obtain rfl := Option.some.inj (Option.some.inj isMarks)
  have inText := dateMarks_eq_some found
  have inOld := dateMarks_eq_some oldFound
  have sameFront : (marks.1 = oldMarks.1 ∧ text.take marks.1 = old.take marks.1) ↔ old.take oldMarks.1 = around.1 := by
    rw [← front]
    constructor
    · intro same
      rw [← same.1, same.2]
    · intro same
      have length := congrArg List.length same
      rw [List.length_take, List.length_take] at length
      have position : marks.1 = oldMarks.1 := by omega
      refine ⟨position, ?_⟩
      rw [← same, position]
  have compared : (CString.sameString (old.drop oldMarks.2) (text.drop marks.2) = some true ↔
        CString.Holds (old.drop oldMarks.2) around.2) ∧
      (CString.sameString (old.drop oldMarks.2) (text.drop marks.2) = none ↔ old.drop oldMarks.2 <+: around.2) :=
    CString.sameString_eq behind
  have oldAround : aroundDate old = some around ↔
      old.take oldMarks.1 = around.1 ∧ CString.Holds (old.drop oldMarks.2) around.2 := by
    rw [aroundDate_eq_some, oldFound]
    simp
  rw [sameAroundDate, oldAround, ← compared.1, ← compared.2, ← sameFront]
  by_cases same : marks.1 = oldMarks.1 ∧ text.take marks.1 = old.take marks.1
  · rw [if_pos same]
    exact ⟨(and_iff_right same).symm, (and_iff_right same).symm⟩
  · rw [if_neg same]
    simp [same]

def PublishedAs (svc : PublishServices) (document : CurrentSettings) (content : Option (List Byte)) : Prop :=
  ∃ text, content = some text ∧ aroundDate text = some (svc.around document)

section

variable (svc : PublishServices) (call : PublishCall) (published : PublishedSettings)

structure DescribesSettings : Prop where
  current : ∃ document, call.currentSettings svc false = .ok document ∧
    PublishedAs svc document published.current
  v1 : ∃ document, call.currentSettings svc true = .ok document ∧ PublishedAs svc document published.v1

/-- After a success both variables say what the settings are, and there is success if the variables can be written. -/
structure PublishLaw : Prop where
  describes : ∀ after, populateCurrentSettingsIfNeeded svc call published = some (.success, after) →
    DescribesSettings svc call after
  succeeds : call.setCurrent = .success → call.setV1 = .success →
    ∃ after, populateCurrentSettingsIfNeeded svc call published = some (.success, after)

/-- The document can be made: there is a time, each group has a first member with a provider, and the text can be
printed. -/
def Creates (v1Compatible : Bool) : Prop :=
  ∃ text, createXmlStringFromCurrentSettings svc call v1Compatible = .ok text

/-- The variable of the current format says what the settings are. -/
def Unchanged : Prop :=
  ∃ old document, call.oldText published = some old ∧ call.currentSettings svc false = .ok document ∧
    aroundDate old = some (svc.around document)

/-- A published text of the current format has a date, and does not end within what the new one says. -/
def Legible : Prop :=
  ∀ old, call.oldText published = some old → ∃ marks, dateMarks old = some (some marks) ∧
    ∀ document, call.currentSettings svc false = .ok document →
      ¬ (old.take marks.1 = (svc.around document).1 ∧ old.drop marks.2 <+: (svc.around document).2)

structure PublishCondition : Prop where
  /-- If the variable of the current format says what the settings are, the other one does so too. -/
  inStep : Unchanged svc call published → Creates svc call false →
    ∃ document, call.currentSettings svc true = .ok document ∧ PublishedAs svc document published.v1
  legible : call.setCurrent = .success → call.setV1 = .success → Legible svc call published
  creates : call.setCurrent = .success → call.setV1 = .success →
    Creates svc call false ∧ (Unchanged svc call published ∨ Creates svc call true)

end

section

variable {svc : PublishServices} {call : PublishCall} {published after : PublishedSettings}

theorem create_ok {v1Compatible : Bool} {text : List Byte}
    (creates : createXmlStringFromCurrentSettings svc call v1Compatible = .ok text) :
    ∃ document, call.currentSettings svc v1Compatible = .ok document ∧
      aroundDate text = some (svc.around document) := by
  obtain ⟨date, _, creates⟩ := Fallible.bind_eq_ok.mp creates
  obtain ⟨document, isDocument, prints⟩ := Fallible.bind_eq_ok.mp creates
  exact ⟨document, isDocument, svc.prints document date text prints⟩

/-- A text that says what the settings are ends with a null. -/
theorem Unchanged.legible (unchanged : Unchanged svc call published) : Legible svc call published := by
  intro old isOld
  obtain ⟨found, document, isFound, isDocument, isAround⟩ := unchanged
  obtain rfl := Option.some.inj (isOld.symm.trans isFound)
  obtain ⟨marks, isMarks, _, behind⟩ := aroundDate_eq_some.mp isAround
  refine ⟨marks, isMarks, ?_⟩
  intro other isOther cutOff
  obtain rfl := Except.ok.inj (isDocument.symm.trans isOther)
  have longer := behind.lt_length
  have shorter := cutOff.2.length_le
  omega

theorem writeCurrentSettings_success {text : List Byte} :
    writeCurrentSettings svc call text published = (.success, after) ↔
      call.setCurrent = .success ∧ call.setV1 = .success ∧
        ∃ textV1, createXmlStringFromCurrentSettings svc call true = .ok textV1 ∧
          after = ⟨some text, some textV1⟩ := by
  rw [writeCurrentSettings]
  cases call.setCurrent with
  | error code => simp
  | success =>
    cases createXmlStringFromCurrentSettings svc call true with
    | error code => simp
    | ok textV1 =>
      cases call.setV1 with
      | error code => simp
      | success => simp [eq_comm]

/-- Success: nothing had changed, or both variables were written. -/
theorem populate_success_iff : populateCurrentSettingsIfNeeded svc call published = some (.success, after) ↔
      Legible svc call published ∧ ∃ text, createXmlStringFromCurrentSettings svc call false = .ok text ∧
        ((Unchanged svc call published ∧ after = published) ∨ (¬ Unchanged svc call published ∧
            writeCurrentSettings svc call text published = (.success, after))) := by
  rw [populateCurrentSettingsIfNeeded]
  cases isOld : call.oldText published with
  | none =>
    have legible : Legible svc call published := by
      intro old found
      rw [isOld] at found
      cases found
    have changed : ¬ Unchanged svc call published := by
      intro unchanged
      obtain ⟨old, _, found, _⟩ := unchanged
      rw [isOld] at found
      cases found
    cases createXmlStringFromCurrentSettings svc call false with
    | error code => simp
    | ok text => simp [legible, changed]
  | some old =>
    have isLegible : Legible svc call published ↔ ∃ marks, dateMarks old = some (some marks) ∧
        ∀ document, call.currentSettings svc false = .ok document →
          ¬ (old.take marks.1 = (svc.around document).1 ∧ old.drop marks.2 <+: (svc.around document).2) := by
      simp [Legible, isOld]
    cases oldFound : dateMarks old with
    | none => simp [isLegible, oldFound]
    | some found =>
      cases found with
      | none => simp [isLegible, oldFound]
      | some oldMarks =>
        cases creates : createXmlStringFromCurrentSettings svc call false with
        | error code => simp [oldFound]
        | ok text =>
          obtain ⟨document, isDocument, isAround⟩ := create_ok creates
          obtain ⟨marks, found, _, _⟩ := aroundDate_eq_some.mp isAround
          obtain ⟨same, outside⟩ := sameAroundDate_eq oldFound found isAround
          have isUnchanged : Unchanged svc call published ↔ sameAroundDate old text oldMarks marks = some true := by
            rw [same]
            simp [Unchanged, isOld, isDocument]
          have inside : Legible svc call published ↔ ¬ sameAroundDate old text oldMarks marks = none := by
            rw [isLegible, outside, oldFound]
            simp [isDocument]
          simp only [oldFound, found, isUnchanged, inside]
          cases sameAroundDate old text oldMarks marks with
          | none => simp
          | some answer =>
            cases answer with
            | false => simp
            | true => simp [eq_comm]

theorem current_of_oldText {old : List Byte} (isOld : call.oldText published = some old) :
    published.current = some old := by
  rw [PublishCall.oldText] at isOld
  split at isOld
  · exact isOld
  · cases isOld

theorem PublishLaw.condition (law : PublishLaw svc call published) : PublishCondition svc call published := by
  refine ⟨?_, ?_, ?_⟩
  · intro unchanged creates
    obtain ⟨text, creates⟩ := creates
    have succeeds : populateCurrentSettingsIfNeeded svc call published = some (.success, published) :=
      populate_success_iff.mpr ⟨unchanged.legible, text, creates, .inl ⟨unchanged, rfl⟩⟩
    exact (law.describes published succeeds).v1
  · intro setCurrent setV1
    obtain ⟨after, succeeds⟩ := law.succeeds setCurrent setV1
    exact (populate_success_iff.mp succeeds).1
  · intro setCurrent setV1
    obtain ⟨after, succeeds⟩ := law.succeeds setCurrent setV1
    obtain ⟨_, text, creates, outcome⟩ := populate_success_iff.mp succeeds
    refine ⟨⟨text, creates⟩, outcome.imp And.left ?_⟩
    intro written
    obtain ⟨_, _, textV1, createsV1, _⟩ := writeCurrentSettings_success.mp written.2
    exact ⟨textV1, createsV1⟩

theorem PublishCondition.law (condition : PublishCondition svc call published) : PublishLaw svc call published := by
  refine ⟨?_, ?_⟩
  · intro after succeeds
    obtain ⟨_, text, creates, outcome⟩ := populate_success_iff.mp succeeds
    obtain ⟨unchanged, rfl⟩ | ⟨_, written⟩ := outcome
    · obtain ⟨old, document, isOld, isDocument, isAround⟩ := id unchanged
      exact ⟨⟨document, isDocument, old, current_of_oldText isOld, isAround⟩,
        condition.inStep unchanged ⟨text, creates⟩⟩
    · obtain ⟨_, _, textV1, createsV1, rfl⟩ := writeCurrentSettings_success.mp written
      obtain ⟨document, isDocument, isAround⟩ := create_ok creates
      obtain ⟨documentV1, isDocumentV1, isAroundV1⟩ := create_ok createsV1
      exact ⟨⟨document, isDocument, text, rfl, isAround⟩, ⟨documentV1, isDocumentV1, textV1, rfl, isAroundV1⟩⟩
  · intro setCurrent setV1
    have legible := condition.legible setCurrent setV1
    obtain ⟨⟨text, creates⟩, outcome⟩ := condition.creates setCurrent setV1
    by_cases unchanged : Unchanged svc call published
    · exact ⟨published, populate_success_iff.mpr ⟨legible, text, creates, .inl ⟨unchanged, rfl⟩⟩⟩
    · obtain ⟨textV1, createsV1⟩ := outcome.resolve_left unchanged
      refine ⟨⟨some text, some textV1⟩, populate_success_iff.mpr ⟨legible, text, creates, .inr ⟨unchanged, ?_⟩⟩⟩
      exact writeCurrentSettings_success.mpr ⟨setCurrent, setV1, textV1, createsV1, rfl⟩

end

/-- A success leaves both variables as they should be, and comes about, exactly if before the call the two variables
were in step and, when they can be written, the documents can be made and compared. -/
theorem publishLaw_iff (svc : PublishServices) (call : PublishCall) (published : PublishedSettings) :
    PublishLaw svc call published ↔ PublishCondition svc call published :=
  ⟨PublishLaw.condition, PublishCondition.law⟩

/-! ## Boot after boot

With the library of this repository the settings have the same names in both formats. The two variables then stay in
step as long as no boot writes the first and fails to write the second. -/

/-- What a boot leaves. The variables are untouched if the boot stops at a read behind a text. -/
def publish (svc : PublishServices) (published : PublishedSettings) (call : PublishCall) : PublishedSettings :=
  match populateCurrentSettingsIfNeeded svc call published with
  | none => published
  | some (_, after) => after

/-- A published text of the current format has a date, and the text of the first format says the same. -/
def VariablesInStep (published : PublishedSettings) : Prop :=
  ∀ text, published.current = some text → ∃ around, aroundDate text = some around ∧
    ∃ textV1, published.v1 = some textV1 ∧ aroundDate textV1 = some around

/-- Both documents can be made, and if the first is written then so is the second. -/
structure Completes (svc : PublishServices) (call : PublishCall) : Prop where
  current : Creates svc call false
  v1 : Creates svc call true
  both : call.setCurrent = .success → call.setV1 = .success

section

variable {svc : PublishServices} {call : PublishCall} {published : PublishedSettings}

/-- A boot leaves the variables as they are, or comes to the writes. -/
theorem publish_effect (svc : PublishServices) (published : PublishedSettings) (call : PublishCall) :
    publish svc published call = published ∨ ∃ text, createXmlStringFromCurrentSettings svc call false = .ok text ∧
        publish svc published call = (writeCurrentSettings svc call text published).2 := by
  simp only [publish, populateCurrentSettingsIfNeeded]
  cases call.oldText published with
  | none =>
    cases createXmlStringFromCurrentSettings svc call false with
    | error code | ok text => simp
  | some old =>
    dsimp only
    cases dateMarks old with
    | none => simp
    | some found =>
      cases found with
      | none => simp
      | some oldMarks =>
        cases createXmlStringFromCurrentSettings svc call false with
        | error code => simp
        | ok text =>
          dsimp only
          cases dateMarks text with
          | none => simp
          | some found =>
            cases found with
            | none => simp
            | some marks =>
              dsimp only
              cases sameAroundDate old text oldMarks marks with
              | none => simp
              | some answer => cases answer <;> simp

theorem currentSettings_v1 (names : ∀ id, svc.v1NumberFromId id = some id) :
    call.currentSettings svc true = call.currentSettings svc false := by
  simp [PublishCall.currentSettings, PublishCall.providerSettings, names]

theorem VariablesInStep.legible (inStep : VariablesInStep published) (creates : Creates svc call false) :
    Legible svc call published := by
  intro old isOld
  obtain ⟨around, isAround, _⟩ := inStep old (current_of_oldText isOld)
  obtain ⟨marks, isMarks, _, behind⟩ := aroundDate_eq_some.mp isAround
  refine ⟨marks, isMarks, ?_⟩
  intro document isDocument cutOff
  -- the null of the old text would be in the string of the new one
  obtain ⟨text, created⟩ := creates
  obtain ⟨other, isOther, newAround⟩ := create_ok created
  obtain rfl := Except.ok.inj (isDocument.symm.trans isOther)
  obtain ⟨_, _, _, newBehind⟩ := aroundDate_eq_some.mp newAround
  have null : (0 : Byte) ∈ old.drop marks.2 := behind.stored.subset (by simp)
  exact newBehind.plain 0 (cutOff.2.subset null) rfl

theorem VariablesInStep.publishLaw (inStep : VariablesInStep published) (names : ∀ id, svc.v1NumberFromId id = some id)
    (completes : Completes svc call) : PublishLaw svc call published := by
  refine PublishCondition.law ⟨?_, fun _ _ => inStep.legible completes.current, fun _ _ => ⟨completes.current, .inr completes.v1⟩⟩
  intro unchanged _
  obtain ⟨old, document, isOld, isDocument, isAround⟩ := unchanged
  obtain ⟨around, oldAround, textV1, isV1, sameAround⟩ := inStep old (current_of_oldText isOld)
  obtain rfl := Option.some.inj (oldAround.symm.trans isAround)
  exact ⟨document, (currentSettings_v1 names).trans isDocument, textV1, isV1, sameAround⟩

/-- A boot that completes leaves the variables in step. -/
theorem VariablesInStep.publish (inStep : VariablesInStep published) (names : ∀ id, svc.v1NumberFromId id = some id)
    (completes : Completes svc call) : VariablesInStep (publish svc published call) := by
  have written : ∀ text, createXmlStringFromCurrentSettings svc call false = .ok text →
      VariablesInStep (writeCurrentSettings svc call text published).2 := by
    intro text creates
    obtain ⟨textV1, createsV1⟩ := completes.v1
    obtain ⟨document, isDocument, isAround⟩ := create_ok creates
    obtain ⟨documentV1, isDocumentV1, isAroundV1⟩ := create_ok createsV1
    rw [currentSettings_v1 names] at isDocumentV1
    obtain rfl := Except.ok.inj (isDocument.symm.trans isDocumentV1)
    rw [writeCurrentSettings]
    cases setCurrent : call.setCurrent with
    | error code => exact inStep
    | success =>
      simp only [createsV1, completes.both setCurrent]
      intro found isFound
      obtain rfl := Option.some.inj isFound
      exact ⟨_, isAround, textV1, rfl, isAroundV1⟩
  obtain same | ⟨text, creates, same⟩ := publish_effect svc published call
  · rwa [same]
  · rw [same]
    exact written text creates

/-- From a device on which nothing is published yet, through every sequence of boots that complete, the published
settings are current after each success. -/
theorem publishLaw_boots (names : ∀ id, svc.v1NumberFromId id = some id) (calls : List PublishCall)
    (complete : ∀ call ∈ calls, Completes svc call) :
    Runs.Guarded (Dfci.publish svc) (fun published call => PublishLaw svc call published) ⟨none, none⟩ calls := by
  have guarded : Runs.Guarded (Dfci.publish svc) (fun _ call => Completes svc call) ⟨none, none⟩ calls :=
    Runs.guarded_of_forall _ (fun call mem _ => complete call mem) _
  have initially : VariablesInStep ⟨none, none⟩ := by
    intro text nothing
    cases nothing
  refine Runs.Guarded.shows _ ?_ ?_ initially guarded
  · intro published call inStep completes
    exact inStep.publish names completes
  · intro published call inStep completes
    exact inStep.publishLaw names completes

end

/-! ## Two formats out of step -/

def tagged (name : AsciiString) (inside : List Byte) : List Byte :=
  (AsciiString.ofString "<").chars ++ name.chars ++ (AsciiString.ofString ">").chars ++ inside ++
    (AsciiString.ofString "</").chars ++ name.chars ++ (AsciiString.ofString ">").chars

/-- A printer for trees of the depth of a document, without white space. -/
def plainText (node : XmlNode) : List Byte :=
  (AsciiString.ofString "<?xml version=\"1.0\" encoding=\"utf-8\"?><").chars ++ node.name.chars ++
    node.attributes.flatMap (fun pair => (AsciiString.ofString " ").chars ++ pair.1.chars ++
      (AsciiString.ofString "=\"").chars ++ pair.2.chars ++ (AsciiString.ofString "\"").chars) ++
    (AsciiString.ofString ">").chars ++
    node.children.flatMap (fun part => tagged part.name (part.value.chars ++ part.children.flatMap fun setting =>
      tagged setting.name (setting.children.flatMap fun leaf => tagged leaf.name leaf.value.chars))) ++
    (AsciiString.ofString "</").chars ++ node.name.chars ++ (AsciiString.ofString ">").chars ++ [0]

def plainFront : List Byte :=
  (AsciiString.ofString "<?xml version=\"1.0\" encoding=\"utf-8\"?><CurrentSettingsPacket xmlns=\"urn:UefiSettings-Schema\">").chars

/-- What `plainText` prints behind the date. -/
def CurrentSettings.plain (document : CurrentSettings) (lsv : AsciiString) : List Byte :=
  tagged (.ofString "Settings") (document.settings.flatMap fun setting => tagged (.ofString "SettingCurrent")
    (tagged (.ofString "Id") setting.1.chars ++ tagged (.ofString "Value") setting.2.chars)) ++
    (tagged (.ofString "LSV") lsv.chars ++ (AsciiString.ofString "</CurrentSettingsPacket>").chars)

def plainDate : AsciiString := .ofString "2025-11-01T08:00:00"

theorem plainText_toXml (document : CurrentSettings) (lsv : AsciiString) : plainText (document.toXml plainDate lsv) =
      plainFront ++ ((AsciiString.ofString "<Date>").chars ++ (plainDate.chars ++ ((AsciiString.ofString "<").chars ++
        ((AsciiString.ofString "/Date>").chars ++ (document.plain lsv ++ [0]))))) := by
  have blank : (AsciiString.ofString "").chars = [] := rfl
  have front : (AsciiString.ofString "<?xml version=\"1.0\" encoding=\"utf-8\"?><").chars ++
      ((AsciiString.ofString "CurrentSettingsPacket").chars ++ ((AsciiString.ofString " ").chars ++
        ((AsciiString.ofString "xmlns").chars ++ ((AsciiString.ofString "=\"").chars ++
          ((AsciiString.ofString "urn:UefiSettings-Schema").chars ++ ((AsciiString.ofString "\"").chars ++
            (AsciiString.ofString ">").chars)))))) = plainFront := by decide +kernel
  have opens : (AsciiString.ofString "<").chars ++ ((AsciiString.ofString "Date").chars ++ (AsciiString.ofString ">").chars) =
      (AsciiString.ofString "<Date>").chars := by decide +kernel
  have closes : (AsciiString.ofString "</").chars ++ ((AsciiString.ofString "Date").chars ++
      (AsciiString.ofString ">").chars) = (AsciiString.ofString "<").chars ++ (AsciiString.ofString "/Date>").chars := by
    decide +kernel
  have ends : (AsciiString.ofString "</").chars ++ ((AsciiString.ofString "CurrentSettingsPacket").chars ++
      (AsciiString.ofString ">").chars) = (AsciiString.ofString "</CurrentSettingsPacket>").chars := by decide +kernel
  rw [← front, ← opens, CurrentSettings.plain, ← ends, ← List.append_assoc (AsciiString.ofString "<").chars
    (AsciiString.ofString "/Date>").chars, ← closes]
  simp only [plainText, CurrentSettings.toXml, XmlNode.leaf, XmlNode.name, XmlNode.attributes, XmlNode.children,
    XmlNode.value, List.flatMap_cons, List.flatMap_nil, List.flatMap_map, tagged, List.append_assoc, List.append_nil,
    List.nil_append, blank]

theorem aroundDate_plainText (document : CurrentSettings) (lsv : AsciiString) :
    aroundDate (plainText (document.toXml plainDate lsv)) =
      some (plainFront, (AsciiString.ofString "/Date>").chars ++ document.plain lsv) := by
  have first : CString.strStr (AsciiString.ofString "<Date>").chars (plainText (document.toXml plainDate lsv)) =
      some (some plainFront.length) := by
    rw [plainText_toXml]
    exact CString.strStr_first (by decide +kernel) _
  let dated := plainFront ++ (AsciiString.ofString "<Date>2025-11-01T08:00:00<").chars
  have closes : plainText (document.toXml plainDate lsv) =
      dated ++ ((AsciiString.ofString "/Date>").chars ++ (document.plain lsv ++ [0])) := by
    rw [plainText_toXml, List.append_assoc]
    rfl
  have second : CString.strStr (AsciiString.ofString "/Date>").chars (plainText (document.toXml plainDate lsv)) =
      some (some dated.length) := by
    rw [closes]
    exact CString.strStr_first (by decide +kernel) _
  refine aroundDate_eq_some.mpr ⟨(plainFront.length, dated.length), ?_, ?_, ?_⟩
  · simp only [dateMarks, first, second]
    rfl
  · rw [plainText_toXml]
    exact List.take_left
  · rw [closes, List.drop_left, ← List.append_assoc]
    refine ⟨?_, List.prefix_refl _⟩
    intro char mem isNull
    subst isNull
    have plain : ∀ text : AsciiString, 0#8 ∉ text.chars := AsciiString.noNul
    simp [CurrentSettings.plain, tagged, plain] at mem

/-- The manager with that printer, providers that give what they keep, and the library of this repository. -/
def plainServices : PublishServices where
  platform := {}
  get := {
    answer := fun _ value size =>
      if value.length ≤ size then ⟨.success, value.length, value⟩ else ⟨.bufferTooSmall, value.length, []⟩
    fits := by
      intro _ value size
      split
      · assumption
      · simp
    sized := by
      intro _ value size succeeds
      split at succeeds <;> simp_all }
  base64Encode := fun _ => .error 9
  getCertInfo := none
  v1NumberFromId := some
  dateText := fun _ => plainDate
  decimalText := .ofDecimal
  xmlTreeToString := fun node => .ok (plainText node)
  around := fun document =>
    (plainFront, (AsciiString.ofString "/Date>").chars ++ document.plain (.ofDecimal document.lsv))
  prints := by
    intro document date text prints
    obtain rfl := Except.ok.inj prints
    exact aroundDate_plainText document _

theorem frontCamera_named : (AsciiString.ofString "Dfci.FrontCamera.Enable").startsWithDigit = false := by
  decide

def cameraBoot (value : Byte) (setV1 : EfiStatus) : PublishCall where
  providers := ⟨[⟨.ofString "Dfci.FrontCamera.Enable", .enable, 0, [value]⟩], [],
    List.forall_mem_singleton.mpr frontCamera_named⟩
  internalData := none
  stackByte := 0
  getTime := fun _ => .ok .zero
  getVariable := none
  setCurrent := .success
  setV1 := setV1

theorem publishLaw_cameraBoots :
    Runs.Guarded (publish plainServices) (fun published call => PublishLaw plainServices call published) ⟨none, none⟩
      [cameraBoot 1 .success, cameraBoot 0 .success, cameraBoot 0 .success] := by
  have enabled : Completes plainServices (cameraBoot 1 .success) := ⟨⟨_, rfl⟩, ⟨_, rfl⟩, fun _ => rfl⟩
  have disabled : Completes plainServices (cameraBoot 0 .success) := ⟨⟨_, rfl⟩, ⟨_, rfl⟩, fun _ => rfl⟩
  exact publishLaw_boots (fun _ => rfl) _
    (List.forall_mem_cons.mpr ⟨enabled, List.forall_mem_cons.mpr ⟨disabled, List.forall_mem_singleton.mpr disabled⟩⟩)

/-- The camera is enabled, then it is disabled and the second write fails, then nothing changes any more. -/
def publishedAfterFailure : PublishedSettings :=
  Runs.run (publish plainServices) ⟨none, none⟩ [cameraBoot 1 .success, cameraBoot 0 .outOfResources]

/-- The document of the first format still says that the camera is enabled, and a variable without a date is never
replaced. -/
theorem published_stale :
    populateCurrentSettingsIfNeeded plainServices (cameraBoot 0 .success) publishedAfterFailure =
        some (.success, publishedAfterFailure) ∧
      ¬ PublishLaw plainServices (cameraBoot 0 .success) publishedAfterFailure ∧
      ¬ PublishLaw plainServices (cameraBoot 0 .success) ⟨some [0x20, 0], none⟩ := by
  have skipped : populateCurrentSettingsIfNeeded plainServices (cameraBoot 0 .success) publishedAfterFailure =
      some (.success, publishedAfterFailure) := by
    decide +kernel
  have stale : publishedAfterFailure.v1.bind aroundDate ≠
      ((cameraBoot 0 .success).currentSettings plainServices true).toOption.map plainServices.around := by
    decide +kernel
  refine ⟨skipped, ?_, ?_⟩
  · intro law
    obtain ⟨document, isDocument, text, isText, isAround⟩ := (law.describes _ skipped).v1
    refine stale ?_
    rw [isText, isDocument, Option.bind_some, isAround]
    rfl
  · intro law
    obtain ⟨after, succeeds⟩ := law.succeeds rfl rfl
    have refused : populateCurrentSettingsIfNeeded plainServices (cameraBoot 0 .success) ⟨some [0x20, 0], none⟩ =
        some (.invalidParameter, ⟨some [0x20, 0], none⟩) := by
      decide +kernel
    rw [refused] at succeeds
    cases succeeds

end Dfci
