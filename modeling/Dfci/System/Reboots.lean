import Dfci.Settings.Reboot
import Dfci.System.Answers

/-! # The reset notification

The final exit of `ProcessMailBoxes` issues it when `mRebootRequired` is set. Nothing clears that flag, neither a packet
that fails nor the wait for EndOfDxe, but a settings packet sets it only when it succeeds as a whole. -/

namespace Dfci

def MailBox.isSettings : MailBox → Bool
  | .settings | .settings2 => true
  | .identity | .identity2 | .permissions | .permissions2 => false

namespace Machine

open SettingsState

def NeedsReboot (p : Platform) (m : Machine) : PacketStep → Prop
  | .apply ui box data =>
    box.isSettings = true ∧ m.settings.providers.RebootMoved
      (applyPacket p ui box m data).machine.settings.providers
  | .complete .. => False

instance (p : Platform) (m : Machine) : (step : PacketStep) → Decidable (m.NeedsReboot p step)
  | .apply .. => inferInstanceAs (Decidable (_ ∧ _))
  | .complete .. => .isFalse id

/-- A settings packet that, as it is before it is applied, loses no reboot. -/
def RebootSafe (p : Platform) (m : Machine) : PacketStep → Prop
  | .apply _ _ data =>
    ∀ updated list,
      readDocument p (InternalData.loadOrInit p m.settings.flash) data.payloadText =
        .ok (updated, list) → SafeElements p m.settings.providers list.children
  | .complete .. => True

section

variable {p : Platform} {svc : ProviderServices} {m : Machine}

/-! ## The providers stay the repository's own -/

theorem registrations_settingsReset (p : Platform) (m : Machine) :
    (m.settingsReset p).providers.list.map SettingProvider.registration =
      m.settings.providers.list.map SettingProvider.registration := by
  simp only [settingsReset, Providers.resetAllProvidersToDefaultsWithMatchingFlags, List.map_map]
  refine List.map_congr_left fun provider _ => ?_
  simp only [Function.comp_apply, Providers.resetProvider]
  split <;> rfl

theorem registrations_clearDfci (p : Platform) (m : Machine) (token : AuthToken) :
    (m.clearDfci p token).2.settings.providers.list.map SettingProvider.registration =
      m.settings.providers.list.map SettingProvider.registration := by
  have effect := m.clearDfci_effect p token
  have reset := registrations_settingsReset p m
  generalize m.clearDfci p token = result at effect ⊢
  cases effect with
  | refused => rfl
  | permissionsFailed | certsFailed | cleared => exact reset

theorem registrations_applyPacket (p : Platform) (ui : UserInterface) (box : MailBox) (m : Machine) (data : Packet) :
    (applyPacket p ui box m data).machine.settings.providers.list.map SettingProvider.registration =
      m.settings.providers.list.map SettingProvider.registration := by
  have identity : (applyNewIdentityPacket p ui m data).machine.settings.providers.list.map
      SettingProvider.registration = m.settings.providers.list.map SettingProvider.registration := by
    have effect := applyNewIdentityPacket_effect p ui m data
    generalize (applyNewIdentityPacket p ui m data).machine = after at effect ⊢
    cases effect with
    | kept | provisioned => rfl
    | clears approver token before => exact registrations_clearDfci p { m with auth := before } token
  cases box with
  | identity | identity2 => exact identity
  | permissions | permissions2 => rfl
  | settings | settings2 =>
    simp only [applyPacket, applyNewSettingsPacket_replay]
    exact Providers.registrations_replay ..

theorem lkg_settings (p : Platform) (op : LkgOperation) (box : MailBox) (m : Machine)
    (data : Packet) : (lkg p op box m data).machine.settings = m.settings := by
  have identity : (identityLkgHandler p op m data).machine.settings = m.settings :=
    (identityLkgHandler_frame p op m data).2.2
  cases box with
  | identity | identity2 => exact identity
  | permissions | permissions2 | settings | settings2 => rfl

theorem own_take (step : PacketStep) (own : m.settings.providers.Own p svc) :
    (m.take p step).settings.providers.Own p svc := by
  cases step with
  | apply ui box data => exact own.congr (registrations_applyPacket p ui box m data)
  | complete op box data =>
    rw [take, lkg_settings]
    exact own

theorem own_run (steps : List PacketStep) (own : m.settings.providers.Own p svc) :
    (Runs.run (take p) m steps).settings.providers.Own p svc := by
  induction steps generalizing m with
  | nil => exact own
  | cons step steps ih => exact ih (own_take step own)

/-- A safe settings packet that needs a reboot asks for it. -/
theorem applyPacket_asking {ui : UserInterface} {box : MailBox} {data : Packet} (own : m.settings.providers.Own p svc)
    (safe : m.RebootSafe p (.apply ui box data)) (needs : m.NeedsReboot p (.apply ui box data)) :
    (applyPacket p ui box m data).status = .success ∧ (applyPacket p ui box m data).data.resetRequired = true := by
  obtain ⟨isSettings, moved⟩ := needs
  cases box with
  | identity | identity2 | permissions | permissions2 => cases isSettings
  | settings =>
    have asked := applyNewSettingsPacket_asking .settings _ _ _ own safe rfl moved
    exact ⟨asked.status, asked.resetRequired⟩
  | settings2 =>
    have asked := applyNewSettingsPacket_asking .settings2 _ _ _ own safe rfl moved
    exact ⟨asked.status, asked.resetRequired⟩

end

end Machine

/-! ## Along a run -/

namespace Manager

open Machine

/-- The final exit calls `DfciSettingChangedResetNotification`. -/
def issuesResetNotification (done : Manager) : Bool := done.rebootRequired

theorem processApplyPacket_rebootRequired (p : Platform) (ui : UserInterface) (box : MailBox) (mgr : Manager) :
    (processApplyPacket p ui box mgr).2.rebootRequired =
      let applied := applyPacket p ui box mgr.machine (mgr.data box)
      (mgr.rebootRequired || !applied.status.isError && applied.data.resetRequired) := by
  simp only [processApplyPacket]
  generalize applyPacket p ui box mgr.machine (mgr.data box) = applied
  cases failed : applied.status.isError with
  | true => simp [setData, setResult]
  | false =>
    simp only [Bool.false_eq_true, if_false, setData, setResult, Bool.not_false, Bool.true_and]
    split <;> rfl

theorem completePacket_rebootRequired (p : Platform) (applyStatus : EfiStatus) (box : MailBox) (mgr : Manager) :
    (completePacket p applyStatus box mgr).rebootRequired = mgr.rebootRequired := by
  rw [completePacket_eq]
  split
  · rfl
  · simp only
    split <;> rfl

structure Honours (p : Platform) (svc : ProviderServices) (before : Manager) (steps : List PacketStep)
    (after : Manager) : Prop where
  spells : Spells p before steps after
  keeps : before.rebootRequired = true → after.rebootRequired = true
  honours : before.machine.settings.providers.Own p svc →
    Runs.Sometime (take p) (fun m step => m.RebootSafe p step ∧ m.NeedsReboot p step)
      before.machine steps → after.rebootRequired = true

theorem Honours.traces (p : Platform) (svc : ProviderServices) : Traces p (Honours p svc) where
  refl mgr := ⟨rfl, id, fun _ never => never.elim⟩
  trans := by
    intro before between after first second honours continues
    refine ⟨(Spells.traces p).trans honours.spells continues.spells, continues.keeps ∘ honours.keeps, ?_⟩
    intro own sometime
    rcases (Runs.sometime_append _).mp sometime with early | late
    · exact continues.keeps (honours.honours own early)
    · -- the second part starts from the machine that the first leads to
      have reached : Runs.run (take p) before.machine first = between.machine := honours.spells
      have still := own_run first own
      rw [reached] at still late
      exact continues.honours still late
  applies := by
    intro ui box mgr
    refine ⟨(Spells.traces p).applies ui box mgr, fun required => ?_, fun own sometime => ?_⟩
    · rw [processApplyPacket_rebootRequired, required, Bool.true_or]
    · obtain ⟨safe, needs⟩ := sometime.resolve_right id
      obtain ⟨succeeds, asks⟩ := applyPacket_asking own safe needs
      simp [processApplyPacket_rebootRequired, succeeds, asks]
  completes := by
    intro applyStatus box mgr present
    refine ⟨(Spells.traces p).completes applyStatus box mgr present, fun required => ?_, ?_⟩
    · rw [completePacket_rebootRequired, required]
    · exact fun _ sometime => (sometime.resolve_right id).2.elim
  reboots honours := ⟨honours.spells, fun _ => rfl, fun _ _ => rfl⟩
  atEndOfDxe honours := ⟨honours.spells, honours.keeps, honours.honours⟩

end Manager

namespace Machine

/-- A change that needs a reboot leads to one. If a settings packet of a boot is safe and changes a value whose provider
is registered for a reboot, then the final exit issues the reset notification, whatever becomes of the other packets and
wherever the processing has to wait. -/
theorem settings_reboot {p : Platform} {svc : ProviderServices} {m : Machine}
    (own : m.settings.providers.Own p svc) {early late : UserInterface}
    {read : MailBox → Except Nat (List Byte)} {done : Manager} (exits : m.finalExit p early late read = some done)
    (needs : Runs.Sometime (take p) (fun m step => m.RebootSafe p step ∧ m.NeedsReboot p step) m
      (m.mailboxesSteps p early late read)) : done.issuesResetNotification = true :=
  ((Manager.Honours.traces p svc).finalExit exits).honours own needs

/-! An Owner that may write the two settings that need a reboot sends settings, in the boot after it was enrolled. -/

open SettingsXml SettingsState

def settingElement (setting : OwnSetting) (value : String) : XmlNode :=
  .node false (.ofString "Setting") (.ofString "") []
    [.leaf idElementName setting.id, .leaf valueElementName (.ofString value)]

def listNode (elements : List XmlNode) : XmlNode := .node false listElementName (.ofString "") [] elements

def settingsDocument (elements : List XmlNode) : XmlNode :=
  .node true packetElementName (.ofString "") []
    [.leaf versionElementName (.ofString "1"), .leaf lsvElementName (.ofString "1"), listNode elements]

def rebootPlatform (elements : List XmlNode) (resultSize : Nat) : Platform where
  pkcs7Verify := keyedPlatform.pkcs7Verify
  createXmlTree := fun xml =>
    .ok (if xml = [0x3C] then
      PermissionStore.permissionsPacket "1" "1" "True"
        [PermissionStore.permissionElement "Dfci3.OnboardWpbt.Enable" "128" "128",
          PermissionStore.permissionElement "Device.Password.Password" "128" "128"]
    else settingsDocument elements)
  settingsResultXmlSize := fun _ => .ok resultSize
  setSettingValue := ProviderServices.setSettingValue {}

def rebootProviders : Providers :=
  ⟨[OwnSetting.wpbt, .password].map fun setting => ⟨setting.id, setting.type, setting.flags, []⟩, [], by decide⟩

def secondBoot (elements : List XmlNode) (resultSize : Nat) : Machine :=
  Runs.run (step (rebootPlatform elements resultSize)) (blank rebootProviders 0)
    [.boot {}, .mailboxes confirmingUser confirmingUser ownerMailboxes, .boot {}]

def settingsMailbox : MailBox → Except Nat (List Byte)
  | .settings => .ok (packetBytes securedSettingsApplyVarSignature 0 [0x3D] (signedWith 1))
  | _ => .error 14

def passwordElements : List XmlNode :=
  [settingElement .wpbt "Enabled", settingElement .password "abeb", settingElement .sample "Enabled"]

theorem safeElements_passwordElements :
    SafeElements (rebootPlatform passwordElements 0) rebootProviders passwordElements := by
  have enabled : Providers.valueFromAscii (rebootPlatform passwordElements 0) OwnSetting.wpbt.type (.ofString "Enabled") =
      .ok [1] := by
    decide +kernel
  have unset : ∀ provider ∈ rebootProviders.list, provider.value = [] := by decide
  have inputs : ∀ element ∈ passwordElements, ∃ input, getInputSettings element = .ok input ∧
      input.1.chars ≠ [] ∧ Providers.SafeInput (rebootPlatform passwordElements 0) rebootProviders input.1 input.2 := by
    intro element mem
    simp only [passwordElements, List.mem_cons, List.not_mem_nil, or_false] at mem
    rcases mem with rfl | rfl | rfl
    · refine ⟨_, rfl, by decide, fun _ provider inList _ bytes converts => ?_, by decide +kernel⟩
      cases enabled.symm.trans converts
      rw [unset provider inList]
      rfl
    · exact ⟨_, rfl, by decide, fun reached => absurd reached (by decide +kernel), by decide +kernel⟩
    · exact ⟨_, rfl, by decide, fun reached => absurd reached (by decide +kernel), by decide +kernel⟩
  refine ⟨fun element mem => ?_, fun element mem id value isInput => ?_, fun _ _ => rfl⟩
  · obtain ⟨input, isInput, filled, _⟩ := inputs element mem
    exact ⟨input, isInput, filled⟩
  · obtain ⟨input, other, _, safe⟩ := inputs element mem
    cases other.symm.trans isInput
    exact safe

theorem own_rebootProviders (elements : List XmlNode) (resultSize : Nat) :
    rebootProviders.Own (rebootPlatform elements resultSize) {} := by
  refine ⟨ProviderServices.setSettingValue_id {}, fun provider mem => ?_⟩
  obtain ⟨setting, _, rfl⟩ := List.mem_map.mp mem
  exact ⟨setting, rfl⟩

def IsFirstPacket (m : Machine) : PacketStep → Prop
  | .apply _ _ data => m.settings = ⟨rebootProviders, none⟩ ∧ data.payloadText = [0x3D]
  | .complete .. => False

instance (m : Machine) : (step : PacketStep) → Decidable (m.IsFirstPacket step)
  | .apply .. => inferInstanceAs (Decidable (_ ∧ _))
  | .complete .. => .isFalse id

theorem IsFirstPacket.rebootSafe {m : Machine} {step : PacketStep} (first : m.IsFirstPacket step) :
    m.RebootSafe (rebootPlatform passwordElements 0) step := by
  cases step with
  | complete => trivial
  | apply ui box data =>
    obtain ⟨isSettings, isPayload⟩ := first
    intro updated list reads
    rw [isSettings, isPayload] at reads
    rw [isSettings]
    obtain ⟨packet, isPacket, rest⟩ := Fallible.bind_eq_ok.mp reads
    obtain ⟨_, _, rest⟩ := Fallible.bind_eq_ok.mp rest
    obtain ⟨found, isList, result⟩ := Fallible.bind_eq_ok.mp rest
    cases result
    have isDocument : readPacketNode (rebootPlatform passwordElements 0) [0x3D] = .ok (settingsDocument passwordElements) :=
      rfl
    cases isDocument.symm.trans isPacket
    have isNode : readListNode (settingsDocument passwordElements) = .ok (listNode passwordElements) := rfl
    cases isNode.symm.trans isList
    exact safeElements_passwordElements

/-- The password is stored, and the firmware resets, though a setting of the packet fails. -/
theorem settings_reboot_password :
    ∃ done, (secondBoot passwordElements 0).finalExit (rebootPlatform passwordElements 0) confirmingUser confirmingUser
        settingsMailbox = some done ∧
      done.machine.settings.providers.list.map SettingProvider.value = [[], [0x61, 0x62]] ∧
      done.issuesResetNotification = true := by
  -- one evaluation of the boots, for what is stored and for what is left to check
  have evaluated : ((secondBoot passwordElements 0).finalExit (rebootPlatform passwordElements 0) confirmingUser
      confirmingUser settingsMailbox).map (fun done => done.machine.settings.providers.list.map SettingProvider.value) =
      some [[], [0x61, 0x62]] ∧
    Runs.Sometime (take (rebootPlatform passwordElements 0))
      (fun m step => m.IsFirstPacket step ∧ m.NeedsReboot (rebootPlatform passwordElements 0) step)
      (secondBoot passwordElements 0)
      ((secondBoot passwordElements 0).mailboxesSteps (rebootPlatform passwordElements 0) confirmingUser confirmingUser
        settingsMailbox) ∧
    (secondBoot passwordElements 0).settings.providers = rebootProviders := by
    decide +kernel
  obtain ⟨exits, needs, isOwn⟩ := evaluated
  obtain ⟨done, isDone, values⟩ := Option.map_eq_some_iff.mp exits
  have own : (secondBoot passwordElements 0).settings.providers.Own (rebootPlatform passwordElements 0) {} := by
    rw [isOwn]
    exact own_rebootProviders passwordElements 0
  exact ⟨done, isDone, values, settings_reboot own isDone (needs.mono _ fun _ _ both => ⟨both.1.rebootSafe, both.2⟩)⟩

def unreadable : XmlNode :=
  .node false (.ofString "Setting") (.ofString "") [] [.leaf idElementName OwnSetting.sample.id]

/-- A boot with these settings changes a value that needs a reboot, and comes to its end without the reset. -/
def LosesReboot (elements : List XmlNode) (resultSize : Nat) : Prop :=
  let p := rebootPlatform elements resultSize
  let m := secondBoot elements resultSize
  Runs.Sometime (take p) (NeedsReboot p) m
      (m.mailboxesSteps p confirmingUser confirmingUser settingsMailbox) ∧
    (m.finalExit p confirmingUser confirmingUser settingsMailbox).map Manager.issuesResetNotification =
      some false

instance (elements : List XmlNode) (resultSize : Nat) : Decidable (LosesReboot elements resultSize) :=
  inferInstanceAs (Decidable (_ ∧ _))

/-- The WPBT setting is disabled by a packet that succeeds. A password is stored by a packet with an unreadable element
behind it, and by one whose result does not fit. None of them leads to a reset. -/
theorem reboots_lost :
    (∀ elements resultSize, (secondBoot elements resultSize).Reachable (rebootPlatform elements resultSize) ∧
        rebootProviders.Own (rebootPlatform elements resultSize) {}) ∧
      LosesReboot [settingElement .wpbt "Disabled"] 0 ∧ LosesReboot [settingElement .password "abeb", unreadable] 0 ∧
      LosesReboot [settingElement .password "abeb"] (maxAllowableDfciResultVarSize + 1) :=
  ⟨fun elements resultSize => ⟨⟨_, _, _, rfl⟩, own_rebootProviders elements resultSize⟩, by decide +kernel,
    by decide +kernel, by decide +kernel⟩

end Machine

end Dfci
