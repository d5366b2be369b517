import Dfci.Machine
import Dfci.Settings.Calls

/-! # Anti-rollback of the settings

A packet is compared with the `LSV` that is loaded from the variable when it comes, and the variable is written only
after a packet that was applied to its end. So what was saved last is what the next packet is compared with. -/

namespace Dfci

open ByteFields

namespace InternalData

/-- The `Version` and `LowestSupportedVersion` fields of the variable; zero while there is none. -/
def storedVersion (flash : Option Variable) : Nat :=
  flash.elim 0 fun var => fieldAt var.data 5 4

def storedLsv (flash : Option Variable) : Nat :=
  flash.elim 0 fun var => fieldAt var.data 9 4

def Readable (flash : Option Variable) : Prop :=
  flash = none ∨ ∃ data, loadFromFlash flash = .ok data

theorem loadFromFlash_fields {flash : Option Variable} {data : InternalData} (loads : loadFromFlash flash = .ok data) :
    data.currentVersion = storedVersion flash ∧ data.lsv = storedLsv flash := by
  cases flash with
  | none => contradiction
  | some var =>
    simp only [loadFromFlash] at loads
    repeat' split at loads
    all_goals first | contradiction | skip
    cases loads
    exact ⟨rfl, rfl⟩

/-- What a packet starts with has the versions of the variable. -/
theorem Readable.loadOrInit {flash : Option Variable} (readable : Readable flash) (p : Platform) :
    (loadOrInit p flash).currentVersion = storedVersion flash ∧ (loadOrInit p flash).lsv = storedLsv flash := by
  rcases readable with rfl | ⟨data, loads⟩
  · exact ⟨rfl, rfl⟩
  · simp only [InternalData.loadOrInit, loads]
    exact loadFromFlash_fields loads

/-- Saving leaves the variable, or one with the versions of the data. -/
theorem saveToFlash_stored (p : Platform) (flash : Option Variable) (data : InternalData) :
    (data.saveToFlash p flash).2 = flash ∨
      ∃ saved, loadFromFlash (data.saveToFlash p flash).2 = .ok saved ∧ saved.lsv = data.lsv := by
  rw [saveToFlash]
  split
  · exact .inl rfl
  · split
    · exact .inr ⟨_, loadFromFlash_encode data p.getTime, rfl⟩
    · exact .inl rfl

end InternalData

open InternalData

namespace SettingsState

open SettingsXml

/-- The number in the `Version` element of a packet's document. -/
def packetVersion (p : Platform) (data : Packet) : Option Nat := do
  let packet ← (readPacketNode p data.payloadText).toOption
  let versionNode ← packet.findFirstChildNodeByName versionElementName
  some versionNode.value.decimalToUintn

section

variable {p : Platform}

theorem readVersions_raises {internal updated : InternalData} {packet : XmlNode}
    (reads : readVersions internal packet = .ok updated) :
    internal.lsv ≤ updated.lsv ∧ ∃ versionNode, packet.findFirstChildNodeByName versionElementName = some versionNode ∧
      updated.currentVersion = versionNode.value.decimalToUintn := by
  simp only [readVersions] at reads
  split at reads
  · contradiction
  · rename_i versionNode found
    repeat' split at reads
    all_goals first | contradiction | skip
    cases reads
    exact ⟨Nat.le_max_left _ _, versionNode, found, rfl⟩

/-- A document that is read raises the `LSV` at most, and has a `Version` that is not below it. -/
theorem readDocument_raises {internal updated : InternalData} {data : Packet} {list : XmlNode}
    (reads : readDocument p internal data.payloadText = .ok (updated, list)) :
    internal.lsv ≤ updated.lsv ∧ packetVersion p data = some updated.currentVersion := by
  obtain ⟨packet, isPacket, rest⟩ := Fallible.bind_eq_ok.mp reads
  obtain ⟨versions, isVersions, rest⟩ := Fallible.bind_eq_ok.mp rest
  obtain ⟨_, _, result⟩ := Fallible.bind_eq_ok.mp rest
  cases result
  obtain ⟨raises, versionNode, found, isVersion⟩ := readVersions_raises isVersions
  refine ⟨raises, ?_⟩
  simp [packetVersion, isPacket, Except.toOption, found, isVersion]

/-- What a packet does to the variable: nothing, or it saves the versions of its document. -/
theorem applyNewSettingsPacket_flash (p : Platform) (box : MailBox) (certs : CertStore)
    (store : Option PermissionStore) (auth : AuthState) (settings : SettingsState) (data : Packet) :
    let after := (applyNewSettingsPacket p box certs store auth settings data).settings.flash
    after = settings.flash ∨ ∃ updated list,
      readDocument p (loadOrInit p settings.flash) data.payloadText = .ok (updated, list) ∧
        after = (updated.saveToFlash p settings.flash).2 := by
  cases signs : settingsSigner p certs auth data with
  | none => exact .inl (by rw [applyNewSettingsPacket_rejected signs])
  | some identity =>
    rw [applyNewSettingsPacket_signed signs]
    simp only [applySettings]
    cases reads : readDocument p (loadOrInit p settings.flash) data.payloadText with
    | error failure => exact .inl rfl
    | ok document =>
      obtain ⟨updated, list⟩ := document
      simp only
      split
      · exact .inl rfl
      · rename_i outcome
        obtain ⟨_, _, rest⟩ := Fallible.bind_eq_ok.mp outcome
        obtain ⟨_, _, result⟩ := Fallible.bind_eq_ok.mp rest
        cases result
        exact .inr ⟨updated, list, rfl, rfl⟩

/-- A packet keeps the variable readable and lowers its `LSV` never. -/
theorem applyNewSettingsPacket_raises (p : Platform) {settings : SettingsState}
    (readable : Readable settings.flash) (box : MailBox) (certs : CertStore) (store : Option PermissionStore)
    (auth : AuthState) (data : Packet) :
    let after := (applyNewSettingsPacket p box certs store auth settings data).settings.flash
    Readable after ∧ storedLsv settings.flash ≤ storedLsv after := by
  rcases applyNewSettingsPacket_flash p box certs store auth settings data with
    same | ⟨updated, list, reads, isAfter⟩
  · simp only [same]
    exact ⟨readable, Nat.le_refl _⟩
  · rcases saveToFlash_stored p settings.flash updated with kept | ⟨saved, loads, sameLsv⟩
    · simp only [isAfter, kept]
      exact ⟨readable, Nat.le_refl _⟩
    · rw [← isAfter] at loads
      refine ⟨.inr ⟨saved, loads⟩, ?_⟩
      calc storedLsv settings.flash
          = (loadOrInit p settings.flash).lsv := (readable.loadOrInit p).2.symm
        _ ≤ updated.lsv := (readDocument_raises reads).1
        _ = saved.lsv := sameLsv.symm
        _ = storedLsv _ := (loadFromFlash_fields loads).2

section

variable {settings : SettingsState} {data : Packet} (readable : Readable settings.flash) {version : Nat}
  (isVersion : packetVersion p data = some version) (older : version < storedLsv settings.flash)
include readable isVersion older

/-- A packet that is older than the variable's `LSV` is turned away before its settings are tried. -/
theorem readDocument_stale :
    ∃ failure, readDocument p (loadOrInit p settings.flash) data.payloadText = .error failure := by
  cases reads : readDocument p (loadOrInit p settings.flash) data.payloadText with
  | error failure => exact ⟨failure, rfl⟩
  | ok document =>
    obtain ⟨updated, list⟩ := document
    exfalso
    obtain ⟨raises, sameVersion⟩ := readDocument_raises reads
    rw [(readable.loadOrInit p).2] at raises
    rw [sameVersion, Option.some_inj] at isVersion
    have bounded := updated.lsv_le
    omega

theorem applyNewSettingsPacketCalls_stale (certs : CertStore) (store : Option PermissionStore) (auth : AuthState) :
    applyNewSettingsPacketCalls p certs store auth settings data = [] := by
  obtain ⟨failure, fails⟩ := readDocument_stale readable isVersion older
  rw [applyNewSettingsPacketCalls]
  split
  · rfl
  · split
    · rfl
    · simp only [applyLoadedCalls]
      -- authentication changes the packet's record, not its document
      have sameDocument : ∀ {status after record},
          validateAndAuthenticateSettings p certs auth data = (status, after, record) →
          record.payloadText = data.payloadText := by
        intro status after record authenticates
        rw [validateAndAuthenticateSettings] at authenticates
        split at authenticates <;> cases authenticates <;> rfl
      split
      · rfl
      · rename_i authenticates
        simp only [applySettingsCalls, sameDocument authenticates, fails]

theorem applyNewSettingsPacket_stale (box : MailBox) (certs : CertStore) (store : Option PermissionStore)
    (auth : AuthState) : (applyNewSettingsPacket p box certs store auth settings data).settings = settings := by
  have noCalls := applyNewSettingsPacketCalls_stale readable isVersion older certs store auth
  have providers : (applyNewSettingsPacket p box certs store auth settings data).settings.providers =
      settings.providers := by
    rw [applyNewSettingsPacket_replay, noCalls, Providers.replay_nil]
  have flash : (applyNewSettingsPacket p box certs store auth settings data).settings.flash = settings.flash := by
    obtain ⟨failure, fails⟩ := readDocument_stale readable isVersion older
    rcases applyNewSettingsPacket_flash p box certs store auth settings data with same | ⟨_, _, reads, _⟩
    · exact same
    · rw [fails] at reads
      contradiction
  generalize (applyNewSettingsPacket p box certs store auth settings data).settings = after at providers flash
  cases after
  cases providers
  cases flash
  rfl

end

end

/-! ## Between two resets -/

/-- What happens to the settings between two resets: a packet, whatever the other managers hold when it comes, and a
boot, at which the drivers register their providers again. -/
inductive SettingsEvent where
  | packet (box : MailBox) (certs : CertStore) (store : Option PermissionStore) (auth : AuthState)
      (data : Packet)
  | reboot (providers : Providers)

def step (p : Platform) (settings : SettingsState) : SettingsEvent → SettingsState
  | .packet box certs store auth data => (applyNewSettingsPacket p box certs store auth settings data).settings
  | .reboot providers => { settings with providers := providers }

/-- The variable can be read, and its `LSV` has reached the bound. -/
structure ReachedLsv (bound : Nat) (settings : SettingsState) : Prop where
  readable : Readable settings.flash
  above : bound ≤ storedLsv settings.flash

theorem ReachedLsv.step {p : Platform} {bound : Nat} {settings : SettingsState}
    (reached : ReachedLsv bound settings) (event : SettingsEvent) :
    ReachedLsv bound (SettingsState.step p settings event) := by
  cases event with
  | packet box certs store auth data =>
    obtain ⟨readable, raises⟩ := applyNewSettingsPacket_raises p reached.readable box certs store auth data
    exact ⟨readable, Nat.le_trans reached.above raises⟩
  | reboot providers => exact ⟨reached.readable, reached.above⟩

theorem ReachedLsv.run {p : Platform} {bound : Nat} {settings : SettingsState}
    (reached : ReachedLsv bound settings) (events : List SettingsEvent) :
    ReachedLsv bound (Runs.run (SettingsState.step p) settings events) :=
  Runs.invariant (SettingsState.step p) (fun _ event held => held.step event) reached events

/-- From a reset on, the `LSV` of the variable never falls and is never above its `Version`. A packet that is older
than it calls no provider and changes nothing. -/
theorem settings_antiRollback {p : Platform} (deletes : p.deleteVariable .settingsVersions = .success)
    (m : Machine) (first second : List SettingsEvent) :
    let state := Runs.run (step p) (m.settingsReset p) first
    storedLsv state.flash ≤ storedLsv (Runs.run (step p) state second).flash ∧
    storedLsv state.flash ≤ storedVersion state.flash ∧
    ∀ box certs store auth data version, packetVersion p data = some version →
      version < storedLsv state.flash →
      applyNewSettingsPacketCalls p certs store auth state data = [] ∧
        (applyNewSettingsPacket p box certs store auth state data).settings = state := by
  have reset : ReachedLsv 0 (m.settingsReset p) := by
    refine ⟨.inl ?_, Nat.zero_le _⟩
    simp only [Machine.settingsReset, resetInFlash, deletes]
  have reached : ReachedLsv 0 (Runs.run (step p) (m.settingsReset p) first) := reset.run first
  generalize Runs.run (step p) (m.settingsReset p) first = state at reached
  obtain ⟨readable, _⟩ := reached
  refine ⟨?_, ?_, ?_⟩
  · -- the state has reached its own LSV, and every later state with it
    have own : ReachedLsv (storedLsv state.flash) state := ⟨readable, Nat.le_refl _⟩
    exact (own.run second).above
  · obtain ⟨version, lsv⟩ := readable.loadOrInit p
    rw [← version, ← lsv]
    exact (loadOrInit p state.flash).lsv_le
  · intro box certs store auth data version isVersion older
    exact ⟨applyNewSettingsPacketCalls_stale readable isVersion older certs store auth,
      applyNewSettingsPacket_stale readable isVersion older box certs store auth⟩

/-! A packet raises the `LSV` to 9, and one of `Version` 3 comes after it. -/

def twoDocuments : Platform where
  createXmlTree := fun xml => .ok (if xml = [0x3C] then enableSetting1 "9" "9" else enableSetting1 "3" "1")

def staleSettings : Packet := { unsignedSettings with packet := some [0, 0x3D] }

def raisesLsv : SettingsEvent := .packet .settings .initial none (.loaded 0) unsignedSettings

def resetMachine : Machine where
  certs := .initial
  certFlash := none
  auth := .loaded 0
  permissions := ⟨none, none⟩
  settings := disabledSetting1

theorem settings_antiRollback_raised :
    let state := Runs.run (step twoDocuments) (resetMachine.settingsReset twoDocuments) [raisesLsv]
    storedLsv state.flash = 9 ∧
      storedLsv state.flash ≤ storedLsv (Runs.run (step twoDocuments) state [.reboot disabledSetting1.providers]).flash ∧
      packetVersion twoDocuments staleSettings = some 3 ∧
      (applyNewSettingsPacket twoDocuments .settings2 .initial none (.loaded 0) state staleSettings).settings = state := by
  have antiRollback := settings_antiRollback (rfl : twoDocuments.deleteVariable .settingsVersions = .success) resetMachine
    [raisesLsv] [.reboot disabledSetting1.providers]
  have raised : storedLsv (Runs.run (step twoDocuments) (resetMachine.settingsReset twoDocuments) [raisesLsv]).flash =
      9 := by
    decide +kernel
  have isStale : packetVersion twoDocuments staleSettings = some 3 := by
    decide +kernel
  refine ⟨raised, antiRollback.1, isStale, (antiRollback.2.2 .settings2 .initial none (.loaded 0) staleSettings 3 isStale
    ?_).2⟩
  rw [raised]
  decide

end SettingsState

end Dfci
