import Dfci.Permission.Synced
import Dfci.System.Invariants
import Dfci.System.ZtdSlot

/-! # What Zero Touch can release

From the enrolment that Zero Touch signs to the unenroll packet that Zero Touch signs. In between other packets, calls and
boots change the permission store, in memory and in its variable. -/

namespace Dfci

namespace Machine

open PermissionStore

/-! ## The mask over a run -/

/-- One of the events of a machine, or a single step out of the mailboxes of a boot. -/
inductive Call where
  | event (event : MachineEvent)
  | packet (step : PacketStep)

def call (p : Platform) (m : Machine) : Call → Machine
  | .event event => m.step p event
  | .packet step => m.take p step

/-- In memory and in the variable, the entry of `Dfci.ZtdUnenroll.Enable` is out of reach of every packet and has nobody
but ZTD in its mask. -/
def GrantSound (p : Platform) (m : Machine) : Prop :=
  m.permissions.Throughout p AtMostZtd

section

variable {p : Platform}

theorem atMostZtd_agrees (first second : PermissionStore) (agrees : first.Agrees second) (atMost : second.AtMostZtd) :
    first.AtMostZtd :=
  atMost.imp (·.agrees agrees) (·.agrees agrees)

theorem grantSound_blank (p : Platform) (providers : Providers) (draws : Nat) :
    (blank providers draws).GrantSound p := by
  refine ⟨nofun, ?_, nofun, nofun⟩
  rintro store ⟨read, reads, _⟩
  cases reads

variable (unlisted : UnlistedId p ztdUnenrollId)
include unlisted

theorem GrantSound.call {m : Machine} (sound : m.GrantSound p) (next : Call) : (m.call p next).GrantSound p := by
  let holds := PermissionState.Throughout p AtMostZtd
  have initially := atMostZtd_initPermStore p
  -- an enrolment makes the grant or leaves it as it is, and no packet can reach it
  have steps : ∀ perms event, holds perms → holds (perms.step p event) := by
    intro perms event held
    refine held.step atMostZtd_agrees initially ?_ ?_ event
    · exact fun properties certIdentity changeType store atMost =>
        atMost.identityChange unlisted properties certIdentity changeType
    · exact fun _ _ _ _ _ unmarked atMost applies => atMost.applyPermissions unmarked applies
  have resets : ∀ perms, holds perms →
      holds (PermissionState.initAndSave p perms.flash).2 :=
    fun _ held => held.initAndSave atMostZtd_agrees initially
  cases next with
  | event event =>
    refine step_permissions_invariant holds steps resets ?_ event sound
    exact fun ownerEnrolled _ held => held.boot atMostZtd_agrees initially ownerEnrolled
  | packet step =>
    cases step with
    | apply ui box data => exact applyPacket_permissions_invariant holds steps resets ui box data sound
    | complete op box data => exact lkg_permissions_invariant holds steps op box data sound

theorem GrantSound.run {m : Machine} (sound : m.GrantSound p) (calls : List Call) :
    (Runs.run (Machine.call p) m calls).GrantSound p := by
  have keeps : ∀ m next, GrantSound p m → (m.call p next).GrantSound p :=
    fun _ next held => held.call unlisted next
  exact Runs.invariant (Machine.call p) keeps sound calls

omit unlisted in
/-- Nobody but ZTD is in the mask, without a store as well. -/
theorem GrantSound.mask {m : Machine} (sound : m.GrantSound p) :
    m.ztdUnenrollMask = Mask.none ∨ m.ztdUnenrollMask = Identity.signerZtd.bit := by
  rw [ztdUnenrollMask]
  cases isStore : m.permissions.store with
  | none => exact .inl rfl
  | some store => exact (sound.memory store isStore).imp (·.queryPermission) (·.queryPermission)

/-! ## The grant -/

/-- The variable has the grant as well. -/
def ReloadsGrant (p : Platform) (m : Machine) : Prop :=
  FixedInFlash p m.permissions.flash ztdUnenrollId Identity.signerZtd.bit

/-- The step neither removes the Owner key nor reads the store from a variable without the grant. -/
def StepKeepsGrant (p : Platform) (m : Machine) : PacketStep → Prop
  | .apply _ box data =>
    match box with
    | .identity | .identity2 => ¬ (data.payloadSize = 0 ∧ data.namedIdentity = some .signerOwner)
    | .permissions | .permissions2 => m.ReloadsAtApply p data → m.ReloadsGrant p
    | .settings | .settings2 => True
  | .complete op box data =>
    match box with
    | .permissions | .permissions2 =>
      m.ReloadsAtCompletion p op data → m.ReloadsGrant p
    | _ => True

/-- The store is not made anew, and where it is read from its variable, that has the grant. -/
def KeepsGrant (p : Platform) (m : Machine) : Call → Prop
  | .packet step => m.StepKeepsGrant p step
  | .event (.mailboxes early late read) =>
    Runs.Guarded (take p) (StepKeepsGrant p) m (m.mailboxesSteps p early late read)
  | .event (.boot zeroTouch) =>
    (m.boot p zeroTouch).certs.populatedIdentities.has .signerOwner = true ∧ m.ReloadsGrant p
  | .event (.recovery recoveryId) =>
    let minted := m.auth.createAuthTokenWithMapping p recoveryId
    ¬ ({ m with auth := minted.2 } : Machine).MayClear minted.1
  | .event (.resetPermissions token) => m.hasUnenrollPermission token ≠ .ok true
  | .event _ => True

structure Granted (m : Machine) : Prop where
  sound : m.permissions.Sound
  grant : m.permissions.Fixed ztdUnenrollId Identity.signerZtd.bit

omit unlisted in
theorem Granted.mask {m : Machine} (granted : m.Granted) : m.ztdUnenrollMask = Identity.signerZtd.bit := by
  obtain ⟨store, isStore, fixed⟩ := granted.grant
  rw [ztdUnenrollMask, isStore]
  exact fixed.queryPermission

theorem Granted.identityPacket {m : Machine} (granted : m.Granted) (ui : UserInterface)
    {data : Packet} (keeps : ¬ (data.payloadSize = 0 ∧ data.namedIdentity = some .signerOwner)) :
    (applyNewIdentityPacket p ui m data).machine.Granted := by
  have effect := applyNewIdentityPacket_effect p ui m data
  generalize (applyNewIdentityPacket p ui m data).machine = after at effect
  cases effect with
  | kept => exact ⟨granted.sound, granted.grant⟩
  | clears approver token before after unenroll names => exact absurd ⟨unenroll, names⟩ keeps
  | provisioned identity approver =>
    let changeType := identityChangeType m.certs identity data
    refine ⟨granted.sound.step (.identityChange (.ok approver) identity changeType), ?_⟩
    obtain ⟨store, isStore, fixed⟩ := granted.grant
    simp only [PermissionState.identityChange, isStore]
    refine ⟨_, rfl, ?_⟩
    rcases findPermissionEntry_identityChange unlisted (.ok approver) identity changeType store with same | again
    · exact fixed.congr same
    · exact again

theorem Granted.take {m : Machine} (granted : m.Granted) {step : PacketStep}
    (keeps : m.StepKeepsGrant p step) : (m.take p step).Granted := by
  cases step with
  | apply ui box data =>
    cases box with
    | identity | identity2 => exact granted.identityPacket unlisted ui keeps
    | permissions | permissions2 =>
      exact ⟨granted.sound.step (.packet m.certs m.auth data),
        granted.grant.packet granted.sound m.certs m.auth keeps⟩
    | settings | settings2 => exact ⟨granted.sound, granted.grant⟩
  | complete op box data =>
    cases box with
    | identity | identity2 =>
      have same : (identityLkgHandler p op m data).machine.permissions = m.permissions :=
        (identityLkgHandler_frame p op m data).2.1
      exact ⟨same ▸ granted.sound, same ▸ granted.grant⟩
    | permissions | permissions2 =>
      exact ⟨granted.sound.step (.lkg op data),
        granted.grant.lkg granted.sound fun dirty fails => keeps ⟨dirty, fails⟩⟩
    | settings | settings2 => exact ⟨granted.sound, granted.grant⟩

theorem Granted.call {m : Machine} (granted : m.Granted) {next : Call}
    (keeps : m.KeepsGrant p next) : (m.call p next).Granted := by
  cases next with
  | packet step => exact granted.take unlisted keeps
  | event event =>
    have sound : (m.step p event).permissions.Sound := m.step_sound p event granted.sound
    refine ⟨sound, ?_⟩
    cases event with
    | boot zeroTouch =>
      -- with an Owner, the store comes from the variable
      obtain ⟨hasOwner, persists⟩ := keeps
      have owned : (m.step p (.boot zeroTouch)).permissions =
          PermissionState.boot p true m.permissions.flash := hasOwner ▸ rfl
      rw [Machine.call, owned]
      exact PermissionState.fixed_boot granted.sound.own persists
    | mailboxes early late read =>
      have takes : ∀ m step, Granted m → StepKeepsGrant p m step →
          (m.take p step).Granted := fun _ _ held guarded => held.take unlisted guarded
      have run := Runs.Guarded.invariant (Machine.take p) takes granted keeps
      rw [run_mailboxesSteps] at run
      exact run.grant
    | recovery recoveryId =>
      let minted := m.auth.createAuthTokenWithMapping p recoveryId
      have effect := ({ m with auth := minted.2 } : Machine).clearDfci_effect p minted.1
      change (({ m with auth := minted.2 } : Machine).clearDfci p minted.1).2.permissions.Fixed _ _
      generalize ({ m with auth := minted.2 } : Machine).clearDfci p minted.1 = result at effect
      cases effect with
      | refused => exact granted.grant
      | permissionsFailed _ _ may | certsFailed _ _ _ _ may | cleared _ _ _ may => exact absurd may keeps
    | resetPermissions token =>
      simp only [Machine.call, Machine.step, resetPermissionsToDefault]
      split
      · exact granted.grant
      · exact granted.grant
      · exact absurd ‹_› keeps
    | resetSettings token =>
      simp only [Machine.call, Machine.step, systemSettingsAccessReset]
      split <;> exact granted.grant
    | authWithPW | authWithSignedData | disposeAuthToken | setSetting => exact granted.grant

omit unlisted in
theorem granted_of_enrolment {m : Machine} (sound : m.permissions.Sound) (ui : UserInterface) {box : MailBox}
    (isIdentity : box.isIdentity = true) {data : Packet} (enrolment : ZtdSignedEnrolment p m data) :
    (m.call p (.packet (.apply ui box data))).Granted := by
  have stays : (applyPacket p ui box m data).machine.permissions.Sound :=
    applyPacket_permissions_invariant PermissionState.Sound (fun _ event held => held.step event)
      (fun _ held => .initAndSave held.own) ui box data sound
  cases box with
  | identity | identity2 => exact ⟨stays, (enrolment.grants ui).2⟩
  | permissions | permissions2 | settings | settings2 => cases isIdentity

/-- From the enrolment on, the mask is exactly ZTD while the grant is kept. -/
theorem Granted.run {m : Machine} (granted : m.Granted) {later : List Call}
    (keeps : Runs.Guarded (Machine.call p) (KeepsGrant p) m later) : (Runs.run (Machine.call p) m later).Granted := by
  have calls : ∀ m next, Granted m → KeepsGrant p m next →
      (m.call p next).Granted := fun _ _ held guarded => held.call unlisted guarded
  exact Runs.Guarded.invariant (Machine.call p) calls granted keeps

end

/-! ## The release -/

theorem has_signerZtd_bit (identity : Identity) : Identity.signerZtd.bit.has identity = true ↔ identity = .signerZtd := by
  cases identity <;> decide

/-- An unenroll packet that Zero Touch signed is accepted without the user for the ZTD key alone. -/
theorem GrantSound.accepted_iff {p : Platform} {m : Machine} (sound : m.GrantSound p)
    {data : Packet} {identity : Identity} (packet : ZtdSignedUnenroll p m data identity) :
    AcceptedWithoutUser p m data ↔ identity = .signerZtd ∧ m.ztdUnenrollMask.has .signerZtd = true := by
  rw [packet.accepted_iff]
  rcases sound.mask with isNone | isZtd
  · simp [isNone]
  · rw [isZtd, has_signerZtd_bit]
    exact ⟨fun same => ⟨same, by decide⟩, And.left⟩

/-- In every state of every run. Zero Touch is granted the right by the enrolment it signs, keeps it until the store is
made anew or read from a variable without it, and cannot use it on the Owner it enrolled. -/
theorem ztd_releases_itself {p : Platform} (unlisted : UnlistedId p ztdUnenrollId) (providers : Providers)
    (draws : Nat) (before : List Call) :
    let m := Runs.run (call p) (blank providers draws) before
    (∀ ui box enrolment later, box.isIdentity = true → ZtdSignedEnrolment p m enrolment →
      let enrolled := m.call p (.packet (.apply ui box enrolment))
      Runs.Guarded (call p) (KeepsGrant p) enrolled later →
      let now := Runs.run (call p) enrolled later
      now.ztdUnenrollMask = Identity.signerZtd.bit ∧
        ∀ data, ZtdSignedUnenroll p now data .signerOwner → ¬ AcceptedWithoutUser p now data) ∧
    ∀ data identity, ZtdSignedUnenroll p m data identity →
      (AcceptedWithoutUser p m data ↔
        identity = .signerZtd ∧ m.ztdUnenrollMask.has .signerZtd = true) := by
  have here := (grantSound_blank p providers draws).run unlisted before
  refine ⟨?_, fun data identity packet => here.accepted_iff packet⟩
  intro ui box enrolment later isIdentity enrols enrolled keeps now
  -- the mask has ZTD alone, and the validation asks it for the Owner
  have granted : enrolled.Granted := granted_of_enrolment here.sound ui isIdentity enrols
  refine ⟨(granted.run unlisted keeps).mask, fun data packet accepted => ?_⟩
  have reached := (here.call unlisted (.packet (.apply ui box enrolment))).run unlisted later
  cases ((reached.accepted_iff packet).mp accepted).1

def ztdBooted : List Call :=
  [.event (.boot { state := .optIn, certificate := .ok [9] })]

def ownerEnrolment : Packet :=
  (initializePacket keyedPlatform .identity (.ok (enrollPacket 1 1 9))).data

def ownerUnenroll : Packet :=
  (initializePacket keyedPlatform .identity (.ok (unenrollPacket 1 9))).data

/-- The packet of an enrolment is committed. -/
def ownerCommit : List Call :=
  [.packet (.complete .commit .identity { ownerEnrolment with lkgDirty := true })]

theorem ztdSigned_ownerEnrolment :
    ZtdSignedEnrolment keyedPlatform (Runs.run (call keyedPlatform) (blank .empty 0) ztdBooted) ownerEnrolment :=
  ⟨by decide +kernel, by decide +kernel, by decide +kernel, by decide +kernel,
    ⟨68, 9, by decide +kernel, by decide +kernel⟩, by decide +kernel⟩

theorem ztdSigned_ownerUnenroll : ZtdSignedUnenroll keyedPlatform (Runs.run (call keyedPlatform) (blank .empty 0)
      (ztdBooted ++ .packet (.apply decliningUser .identity ownerEnrolment) :: ownerCommit)) ownerUnenroll .signerOwner :=
  ⟨by decide +kernel, by decide +kernel, ⟨35, 9, by decide +kernel, by decide +kernel⟩, by decide +kernel⟩

/-- The Owner that Zero Touch enrolled is still there, and so is the grant, and the local user has to be asked. -/
theorem ztd_releases_itself_keyed :
    let now := Runs.run (call keyedPlatform) (blank .empty 0)
      (ztdBooted ++ .packet (.apply decliningUser .identity ownerEnrolment) :: ownerCommit)
    now.certs.provisionedCert .signerOwner = some [1] ∧ now.ztdUnenrollMask = Identity.signerZtd.bit ∧
      ¬ AcceptedWithoutUser keyedPlatform now ownerUnenroll := by
  have unlisted : UnlistedId keyedPlatform ztdUnenrollId := by
    rintro _ _ ⟨⟩
  obtain ⟨granted, refused⟩ := (ztd_releases_itself unlisted .empty 0 ztdBooted).1 decliningUser .identity ownerEnrolment
    ownerCommit rfl ztdSigned_ownerEnrolment ⟨trivial, trivial⟩
  exact ⟨by decide +kernel, granted, refused ownerUnenroll ztdSigned_ownerUnenroll⟩

/-- What the grant is for: Zero Touch removes the Owner that Zero Touch enrolled, without the user. -/
def ReleasesOwner (p : Platform) (m : Machine) : Prop :=
  ∀ ui box enrolment later data, box.isIdentity = true → ZtdSignedEnrolment p m enrolment →
    let enrolled := m.call p (.packet (.apply ui box enrolment))
    Runs.Guarded (call p) (KeepsGrant p) enrolled later →
    let now := Runs.run (call p) enrolled later
    ZtdSignedUnenroll p now data .signerOwner → AcceptedWithoutUser p now data

theorem ztd_cannot_release_owner :
    ¬ ReleasesOwner keyedPlatform (Runs.run (call keyedPlatform) (blank .empty 0) ztdBooted) := by
  intro releases
  have accepted := releases decliningUser .identity ownerEnrolment ownerCommit ownerUnenroll rfl
    ztdSigned_ownerEnrolment ⟨trivial, trivial⟩ ztdSigned_ownerUnenroll
  revert accepted
  decide +kernel

end Machine

end Dfci
