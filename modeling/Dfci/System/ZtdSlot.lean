import Dfci.Permission.Sealed
import Dfci.System.OwnedUsers
import Dfci.System.Steps
import Dfci.System.Unenroll

/-! # The ZTD slot and the entry that guards it

Zero Touch is enrolled and removed at boot. What keeps a packet from it is the entry of the ZTD key, which
`IdentityChange` empties when an Owner is enrolled: in memory only. -/

namespace Dfci

namespace CertStore

/-! ## The slot -/

structure ZtdSynced (certs : CertStore) (flash : Option Variable) : Prop where
  keyed : Keyed certs flash
  storable : (certs.certs certZtdIndex).Storable
  synced : (slotIn flash certZtdIndex).getD .empty = certs.certs certZtdIndex

section

variable {certs : CertStore} {flash : Option Variable}

/-- A restore finds the ZTD slot that is there already. -/
theorem ZtdSynced.load_ztd (ztd : ZtdSynced certs flash) :
    (loadProvisionedData flash certs).2.certs certZtdIndex = certs.certs certZtdIndex := by
  have synced := ztd.synced
  rw [CertStore.load_ztd]
  cases found : slotIn flash certZtdIndex with
  | none => rfl
  | some details =>
    rw [found] at synced
    exact synced

theorem ZtdSynced.load (ztd : ZtdSynced certs flash) : ZtdSynced (loadProvisionedData flash certs).2 flash := by
  refine ⟨ztd.keyed.load, ?_, ?_⟩
  · rw [ztd.load_ztd]
    exact ztd.storable
  · rw [ztd.load_ztd]
    exact ztd.synced

theorem Keyed.ztdSynced (keyed : Keyed certs flash) (storable : (certs.certs certZtdIndex).Storable) :
    ZtdSynced certs (some ⟨internalVarAttributes, certs.encode⟩) := by
  have upTo : ∀ i : Fin 7, i ≤ certZtdIndex → i ≤ certOwnerIndex ∨ i = certZtdIndex := by decide
  have all : ∀ i ≤ certZtdIndex, (certs.certs i).Storable := by
    intro i within
    rcases upTo i within with isKey | rfl
    · exact keyed.storable i isKey
    · exact storable
  refine ⟨keyed.encode, storable, ?_⟩
  rw [slotIn_encode all (le_refl _)]
  rfl

theorem ZtdSynced.encode (ztd : ZtdSynced certs flash) : ZtdSynced certs (some ⟨internalVarAttributes, certs.encode⟩) :=
  ztd.keyed.ztdSynced ztd.storable

theorem ZtdSynced.provision (ztd : ZtdSynced certs flash) {identity : Identity} {i : Fin 7} {data : Packet}
    (valid : validateIdentityPacket data = .success)
    (owned : identity = .signerOwner ∨ certs.populatedIdentities.has .signerOwner = true)
    (notCleared : ¬ (data.payloadSize = 0 ∧ identity = .signerOwner)) (other : certZtdIndex ≠ i) :
    ZtdSynced (certs.provision identity i data) flash := by
  have same : (certs.provision identity i data).certs certZtdIndex = certs.certs certZtdIndex := provision_other other
  refine ⟨ztd.keyed.provision valid owned notCleared, ?_, ?_⟩
  · rw [same]
    exact ztd.storable
  · rw [same]
    exact ztd.synced

theorem cleared_ztd (certs : CertStore) : certs.cleared.certs certZtdIndex = certs.certs certZtdIndex := by
  simp [cleared, freeCertStore]

theorem ZtdSynced.cleared (storable : (certs.certs certZtdIndex).Storable) :
    ZtdSynced certs.cleared (some ⟨internalVarAttributes, certs.cleared.encode⟩) :=
  (Keyed.cleared certs).ztdSynced (by rw [cleared_ztd]; exact storable)

end

/-! ## Booting -/

structure ZtdBooted (flash : Option Variable) (certs : CertStore) (after : Option Variable) : Prop where
  ztd : ZtdSynced certs after
  loads : certs.certs certZtdIndex = (slotIn flash certZtdIndex).getD .empty
  owner : certs.populatedIdentities.has .signerOwner = true → PersistsCert flash certOwnerIndex

theorem Persisted.owner {flash : Option Variable} {stored : CertStore} (persisted : Persisted flash stored)
    (has : stored.populatedIdentities.has .signerOwner = true) : PersistsCert flash certOwnerIndex := by
  have isIndex : Identity.toCertIndex .signerOwner = some certOwnerIndex := rfl
  have populated := load_populatedIdentities flash .initial
  rw [persisted] at populated
  have populated : stored.populatedIdentities = CertStore.initial.populatedIdentities ||| slotBits (slotsIn flash) :=
    populated
  rw [populated, Mask.has_or, Bool.or_eq_true] at has
  obtain ⟨details, mem, present⟩ := has_slotBits isIndex (has.resolve_left (by rintro ⟨⟩))
  exact ⟨details, slotIn_eq_some_iff.mpr mem, present⟩

section

variable {p : Platform} (writes : ∀ data, p.setVariable .certificateStore data = .success)
include writes

theorem ztdBooted_populateInternalCertStore {flash : Option Variable}
    (whole : ∀ details, slotIn flash certZtdIndex = some details → details.Storable) :
    let populated := populateInternalCertStore p flash .initial
    ZtdBooted flash populated.2.1 populated.2.2 := by
  have loads := CertStore.load_ztd flash .initial
  have storable : ((slotIn flash certZtdIndex).getD .empty).Storable := by
    cases found : slotIn flash certZtdIndex with
    | none => exact .empty_slot
    | some details => exact whole details found
  have keyed := keyed_populateInternalCertStore writes flash
  have effect := populateInternalCertStore_effect writes flash
  simp only at effect keyed ⊢
  generalize (populateInternalCertStore p flash .initial).2.1 = certs at effect keyed ⊢
  generalize (populateInternalCertStore p flash .initial).2.2 = after at effect keyed ⊢
  cases effect with
  | loaded persisted =>
    rw [persisted] at loads
    exact ⟨⟨keyed, loads ▸ storable, loads.symm⟩, loads, persisted.owner⟩
  | inert inert =>
    rw [inert] at loads
    exact ⟨⟨keyed, loads ▸ storable, loads.symm⟩, loads, (by rintro ⟨⟩)⟩
  | cleared loaded isLoaded =>
    rw [isLoaded] at loads
    have cleared : ZtdSynced loaded.cleared _ := ZtdSynced.cleared (loads ▸ storable)
    refine ⟨cleared.load, ?_, fun has => ?_⟩
    · rw [cleared.load_ztd, cleared_ztd]
      exact loads
    · rw [cleared.keyed.load_hasOwner, cleared_hasOwner] at has
      cases has

/-- The ZTD slot stays, or it is changed as the platform asks for. -/
def ZtdAsked (zeroTouch : ZeroTouch) (before after : CertDetails) : Prop :=
  after = before ∨
    (ZeroTouch.requested zeroTouch = .optIn ∧ ∃ cert, zeroTouch.certificate = .ok cert ∧ after = ⟨some cert, cert.length⟩) ∨
    (ZeroTouch.requested zeroTouch = .optOut ∧ after = .empty)

theorem ZtdSynced.zeroTouch {certs : CertStore} {flash : Option Variable} (ztd : ZtdSynced certs flash)
    {zeroTouch : ZeroTouch} (fits : ∀ cert, zeroTouch.certificate = .ok cert → 0 < cert.length ∧ cert.length < 2 ^ 16) :
    let after := certs.zeroTouch p zeroTouch flash
    ZtdSynced after.1 after.2 ∧ ZtdAsked zeroTouch (certs.certs certZtdIndex) (after.1.certs certZtdIndex) ∧
      after.1.populatedIdentities.has .signerOwner = certs.populatedIdentities.has .signerOwner := by
  have effect := zeroTouch_effect writes zeroTouch flash certs
  generalize certs.zeroTouch p zeroTouch flash = after at effect
  cases effect with
  | kept => exact ⟨ztd, .inl rfl, rfl⟩
  | installed cert asks isCert =>
    obtain ⟨positive, small⟩ := fits cert isCert
    have isSlot : (certs.withZtd cert).certs certZtdIndex = ⟨some cert, cert.length⟩ := by
      simp [CertStore.withZtd, setCert]
    have storable : ((certs.withZtd cert).certs certZtdIndex).Storable := by
      rw [isSlot]
      refine ⟨(by simp), ?_, small⟩
      rintro _ ⟨⟩
      exact ⟨rfl, positive⟩
    exact ⟨(ztd.keyed.withZtd cert).ztdSynced storable, .inr (.inl ⟨asks, cert, isCert, isSlot⟩), has_orZtd _⟩
  | removed asks =>
    have isSlot : certs.withoutZtd.certs certZtdIndex = .empty := by
      simp [CertStore.withoutZtd, setCert]
    have storable : (certs.withoutZtd.certs certZtdIndex).Storable := by
      rw [isSlot]
      exact .empty_slot
    exact ⟨ztd.keyed.withoutZtd.ztdSynced storable, .inr (.inr ⟨asks, isSlot⟩), has_clearZtd _⟩

end

end CertStore

/-! ## Packets for the ZTD key -/

section

variable {p : Platform} {m : Machine} {data : Packet}

/-- A packet that nobody approves is refused, and leaves nothing but tokens. -/
theorem applyNewIdentityPacket_unapproved (ui : UserInterface) {identity : Identity}
    (names : data.namedIdentity = some identity) (unapproved : ∀ approver, ¬ Approval p m data identity approver) :
    let applied := applyNewIdentityPacket p ui m data
    applied.status.isError = true ∧ ∃ auth, applied.machine = { m with auth := auth } := by
  have steps : (applyIdentitySteps p ui m data).status.isError = true ∧
      ∃ auth, (applyIdentitySteps p ui m data).machine = { m with auth := auth } := by
    rw [applyIdentitySteps]
    split
    · exact ⟨rfl, m.auth, rfl⟩
    · split
      · exact ⟨rfl, m.auth, rfl⟩
      · have validation := validateAndAuthenticatePendingProvisionData_validation p m data
        generalize validateAndAuthenticatePendingProvisionData p m data = answer at validation ⊢
        cases validation with
        | refused code auth => exact ⟨rfl, auth, rfl⟩
        | signed other signedLength permMask signer token auth isOther checks signs allowed =>
          rw [names, Option.some.injEq] at isOther
          subst isOther
          exact absurd (.signer signedLength permMask signer checks signs allowed) (unapproved signer)
        | asks other signedLength permMask token auth minted isOther checks permits =>
          rw [names, Option.some.injEq] at isOther
          subst isOther
          exact absurd (.localUser signedLength permMask checks permits) (unapproved .local)
  obtain ⟨fails, kept⟩ := steps
  refine ⟨?_, IdentityApplied.cleanup_kept kept⟩
  rw [applyNewIdentityPacket, (IdentityApplied.cleanup_eq _).1]
  exact fails

/-- Zero Touch signed its own removal, and the entry of `Dfci.ZtdUnenroll.Enable` lets it. -/
def ZtdRemovesItself (p : Platform) (m : Machine) (data : Packet) : Prop :=
  data.payloadSize = 0 ∧ data.namedIdentity = some .signerZtd ∧
    data.signerFrom p m.certs data.signedDataLength = some .signerZtd ∧
    (m.permissions.store.any fun store => (store.queryPermission ztdUnenrollId).has .signerZtd) = true

/-- While the ZTD key is sealed for an Owner, nobody approves a packet for it. -/
theorem ztd_unapproved (shut : m.certs.populatedIdentities.has .signerOwner = true → m.permissions.Sealed ztdKeyId)
    (names : data.namedIdentity = some .signerZtd) (not : ¬ ZtdRemovesItself p m data)
    (approver : Identity) : ¬ Approval p m data .signerZtd approver := by
  have refuses : ∀ {signedLength permMask}, checkPendingProvisionData p m .signerZtd
      { data with dfciIdentity := some .signerZtd } = .ok (signedLength, permMask) → permMask = Mask.none := by
    intro signedLength permMask checks
    have passed := checkPendingProvisionData_checks checks
    obtain ⟨store, isStore, sealed⟩ := shut (passed.owned.resolve_left (by simp))
    obtain ⟨id, other, isId, isOther, mask⟩ := passed.mask
    cases isId
    rw [isStore, Option.some.injEq] at isOther
    subst isOther
    exact mask.trans sealed.queryPermission
  intro approval
  cases approval with
  | signer signedLength permMask signer checks signs allowed =>
    rw [signerMayProvision] at allowed
    split at allowed
    · rename_i removes
      obtain ⟨unenroll, rfl⟩ := removes
      have length : signedLength = data.signedDataLength := checkPendingProvisionData_unenroll unenroll checks
      subst length
      exact not ⟨unenroll, names, signs, allowed⟩
    · rw [refuses checks, Mask.none_has] at allowed
      cases allowed
  | localUser signedLength permMask checks permits =>
    rw [refuses checks, Mask.none_has] at permits
    cases permits

end

/-! ## The machine -/

namespace Machine

open PermissionStore

structure ZtdSafe (m : Machine) : Prop where
  ztd : CertStore.ZtdSynced m.certs m.certFlash
  sound : m.permissions.Sound
  shut : m.certs.populatedIdentities.has .signerOwner = true → m.permissions.Sealed ztdKeyId

/-- What reading the permission store from its variable finds while an Owner is enrolled. -/
def ReloadsSealed (p : Platform) (m : Machine) : Prop :=
  m.certs.populatedIdentities.has .signerOwner = true →
    SealedInFlash p m.permissions.flash ztdKeyId

/-- The document of an authenticated permission packet fails, and the store is read again. -/
def ReloadsAtApply (p : Platform) (m : Machine) (data : Packet) : Prop :=
  ∃ identity store failure, permissionsSigner p m.certs m.auth data = some identity ∧
    m.permissions.store = some store ∧
    store.applyPermissions p data.v1Mode identity data.payloadText = .error failure

def ReloadsAtCompletion (p : Platform) (m : Machine) (op : LkgOperation) (data : Packet) :
    Prop :=
  data.lkgDirty = true ∧ ¬ (op = .commit ∧ (m.permissions.save p).1 = .success)

def ZtdGuard (p : Platform) (m : Machine) : PacketStep → Prop
  | .apply _ box data =>
    match box with
    | .identity | .identity2 => ¬ ZtdRemovesItself p m data
    | .permissions | .permissions2 =>
      UnnamedId p data ztdKeyId ∧ (m.ReloadsAtApply p data → m.ReloadsSealed p)
    | .settings | .settings2 => True
  | .complete op box data =>
    match box with
    | .permissions | .permissions2 =>
      m.ReloadsAtCompletion p op data → m.ReloadsSealed p
    | _ => True

def ZtdKept (p : Platform) (m : Machine) : PacketStep → Prop
  | .apply ui box data =>
    let done := applyPacket p ui box m data
    done.machine.certs.certs certZtdIndex = m.certs.certs certZtdIndex ∧
      (box.isIdentity = true → data.namedIdentity = some .signerZtd → data.payloadSize ≠ 0 →
        done.status.isError = true ∧ ∃ auth, done.machine = { m with auth := auth })
  | .complete op box data =>
    (lkg p op box m data).machine.certs.certs certZtdIndex = m.certs.certs certZtdIndex

section

variable {p : Platform} (writes : ∀ name data, p.setVariable name data = .success)
  (fits : (initPermStore p).varSize ≤ maxSizeForVar) (unlisted : UnlistedId p ztdKeyId)
  {m : Machine}

include writes fits in
theorem ZtdSafe.clearDfci (safe : m.ZtdSafe) (token : AuthToken) :
    let after := (m.clearDfci p token).2
    after.ZtdSafe ∧ after.certs.certs certZtdIndex = m.certs.certs certZtdIndex := by
  have effect := m.clearDfci_effect p token
  have resets := (PermissionState.initAndSave_success_iff writes m.permissions.flash).mpr fits
  have initialized := CertStore.initializeProvisionedData_eq m.certFlash m.certs (writes .certificateStore _)
  generalize m.clearDfci p token = result at effect
  cases effect with
  | refused => exact ⟨safe, rfl⟩
  | permissionsFailed code perms may fails =>
    rw [fails] at resets
    cases resets
  | certsFailed code perms certs certFlash may saved fails =>
    rw [initialized] at fails
    cases fails
  | cleared perms certs certFlash may saved clears =>
    rw [initialized] at clears
    cases clears
    have sound : (PermissionState.initAndSave p m.permissions.flash).2.Sound :=
      PermissionState.Sound.initAndSave safe.sound.own
    rw [saved] at sound
    refine ⟨⟨CertStore.ZtdSynced.cleared safe.ztd.storable, sound, fun has => ?_⟩, CertStore.cleared_ztd _⟩
    -- without an Owner there is nothing to seal
    change m.certs.cleared.populatedIdentities.has .signerOwner = true at has
    rw [CertStore.cleared_hasOwner] at has
    cases has

include writes fits unlisted in
theorem ZtdSafe.identityPacket (safe : m.ZtdSafe) (ui : UserInterface) {data : Packet}
    (not : ¬ ZtdRemovesItself p m data) :
    let after := (applyNewIdentityPacket p ui m data).machine
    after.ZtdSafe ∧ after.certs.certs certZtdIndex = m.certs.certs certZtdIndex := by
  have effect := applyNewIdentityPacket_effect p ui m data
  generalize (applyNewIdentityPacket p ui m data).machine = after at effect
  cases effect with
  | kept => exact ⟨⟨safe.ztd, safe.sound, safe.shut⟩, rfl⟩
  | clears approver token before after =>
    have same : ({ m with auth := before } : Machine).ZtdSafe := ⟨safe.ztd, safe.sound, safe.shut⟩
    obtain ⟨cleared, slot⟩ := same.clearDfci writes fits token
    exact ⟨⟨cleared.ztd, cleared.sound, cleared.shut⟩, slot⟩
  | provisioned identity approver i auth present valid names approval isIndex notCleared =>
    have notZtd : identity ≠ .signerZtd := by
      rintro rfl
      exact ztd_unapproved safe.shut names not approver approval
    have other : certZtdIndex ≠ i := by
      rintro rfl
      cases identity <;> first | exact notZtd rfl | cases isIndex
    obtain ⟨_, passed⟩ := approval.passed
    obtain ⟨_, store, _, isStore, _⟩ := passed.mask
    refine ⟨⟨safe.ztd.provision valid passed.owned notCleared other, ?_, fun _ => ?_⟩, CertStore.provision_other other⟩
    · exact safe.sound.step (.identityChange (.ok approver) identity (identityChangeType m.certs identity data))
    · -- an Owner's certificate seals the key, any other needs an Owner for whom it is sealed
      by_cases isOwner : identity = .signerOwner
      · have enrolls := identityChangeType_ne_unenroll m.certs identity fun empty => notCleared ⟨empty, isOwner⟩
        simp only [PermissionState.identityChange, isStore]
        exact ⟨_, rfl, sealed_identityChange unlisted (.inl ⟨isOwner, enrolls, approver, rfl⟩)⟩
      · exact (safe.shut (passed.owned.resolve_left isOwner)).identityChange unlisted (.ok approver) identity _

include writes fits unlisted

/-- A guarded step keeps the ZTD key sealed for an Owner, and does not touch the slot. -/
theorem ZtdSafe.take (safe : m.ZtdSafe) {step : PacketStep} (guarded : m.ZtdGuard p step) :
    (m.take p step).ZtdSafe ∧ m.ZtdKept p step := by
  cases step with
  | apply ui box data =>
    have refused : ¬ ZtdRemovesItself p m data → data.namedIdentity = some .signerZtd →
        let applied := applyNewIdentityPacket p ui m data
        applied.status.isError = true ∧ ∃ auth, applied.machine = { m with auth := auth } :=
      fun not names => applyNewIdentityPacket_unapproved ui names (ztd_unapproved safe.shut names not)
    have perms : (m.ReloadsAtApply p data → m.ReloadsSealed p) →
        ZtdSafe { m with
          auth := (applyNewPermissionsPacket p m.certs m.auth m.permissions data).auth
          permissions := (applyNewPermissionsPacket p m.certs m.auth m.permissions data).permissions } := by
      intro reloads
      refine ⟨safe.ztd, safe.sound.step (.packet m.certs m.auth data), fun has => ?_⟩
      exact (safe.shut has).packet safe.sound _ _ fun fails => reloads fails has
    cases box with
    | identity | identity2 =>
      obtain ⟨after, slot⟩ := safe.identityPacket writes fits unlisted ui guarded
      exact ⟨after, slot, fun _ names _ => refused guarded names⟩
    | permissions | permissions2 => exact ⟨perms guarded.2, rfl, (by rintro ⟨⟩)⟩
    | settings | settings2 => exact ⟨⟨safe.ztd, safe.sound, safe.shut⟩, rfl, (by rintro ⟨⟩)⟩
  | complete op box data =>
    have identity : (identityLkgHandler p op m data).machine.ZtdSafe ∧
        (identityLkgHandler p op m data).machine.certs.certs certZtdIndex =
          m.certs.certs certZtdIndex := by
      have effect := identityLkgHandler_effect p op m data
      generalize (identityLkgHandler p op m data).machine = after at effect
      cases effect with
      | kept => exact ⟨safe, rfl⟩
      | reloaded =>
        refine ⟨⟨safe.ztd.load, safe.sound, fun has => safe.shut ?_⟩, safe.ztd.load_ztd⟩
        rw [← safe.ztd.keyed.load_hasOwner]
        exact has
      | saved =>
        refine ⟨?_, rfl⟩
        simp only [CertStore.saveProvisionedData, writes]
        exact ⟨safe.ztd.encode, safe.sound, safe.shut⟩
    have perms : (m.ReloadsAtCompletion p op data → m.ReloadsSealed p) →
        ZtdSafe { m with
          permissions := (permissionsLkgHandler p op m.permissions data).2.1 } := by
      intro reloads
      refine ⟨safe.ztd, safe.sound.step (.lkg op data), fun has => ?_⟩
      exact (safe.shut has).lkg safe.sound fun dirty fails => reloads ⟨dirty, fails⟩ has
    cases box with
    | identity | identity2 => exact identity
    | permissions | permissions2 => exact ⟨perms guarded, rfl⟩
    | settings | settings2 => exact ⟨safe, rfl⟩

omit fits unlisted

/-- A boot that finds the ZTD key sealed if it finds an Owner. -/
theorem boot_ztdSafe {zeroTouch : ZeroTouch} (own : OwnAttributes m.permissions.flash)
    (whole : ∀ details, CertStore.slotIn m.certFlash certZtdIndex = some details → details.Storable)
    (small : ∀ cert, zeroTouch.certificate = .ok cert → 0 < cert.length ∧ cert.length < 2 ^ 16)
    (persists : CertStore.PersistsCert m.certFlash certOwnerIndex → SealedInFlash p m.permissions.flash ztdKeyId) :
    (m.boot p zeroTouch).ZtdSafe ∧
      CertStore.ZtdAsked zeroTouch ((CertStore.slotIn m.certFlash certZtdIndex).getD .empty)
        ((m.boot p zeroTouch).certs.certs certZtdIndex) := by
  have booted := CertStore.ztdBooted_populateInternalCertStore (writes .certificateStore) whole
  obtain ⟨synced, asked, owner⟩ := booted.ztd.zeroTouch (writes .certificateStore) small
  rw [booted.loads] at asked
  refine ⟨⟨synced, PermissionState.Sound.boot own _, fun has => ?_⟩, asked⟩
  have enrolled := has
  change (CertStore.zeroTouch p zeroTouch _ _).1.populatedIdentities.has .signerOwner = true at enrolled
  rw [owner] at enrolled
  simp only [boot]
  change PermissionState.Sealed (PermissionState.boot p
    ((CertStore.zeroTouch p zeroTouch _ _).1.populatedIdentities.has .signerOwner) _) ztdKeyId
  rw [owner, enrolled]
  exact PermissionState.fixed_boot own (persists (booted.owner enrolled))

end

/-- The ZTD slot is the same after a mailbox run that does not touch it in any step. -/
theorem mailboxes_ztdKept {p : Platform} {m : Machine} {early late : UserInterface}
    {read : MailBox → Except Nat (List Byte)}
    (kept : Runs.Guarded (take p) (ZtdKept p) m (m.mailboxesSteps p early late read)) :
    (m.mailboxes p early late read).certs.certs certZtdIndex = m.certs.certs certZtdIndex := by
  rw [← run_mailboxesSteps]
  have preserved : ∀ (state : Machine) (step : PacketStep),
      state.certs.certs certZtdIndex = m.certs.certs certZtdIndex → state.ZtdKept p step →
      (state.take p step).certs.certs certZtdIndex = m.certs.certs certZtdIndex := by
    intro state step same kept
    cases step with
    | apply => exact kept.1.trans same
    | complete => exact kept.trans same
  exact Runs.Guarded.invariant (take p) preserved rfl kept

end Machine

/-! ## Over boots and mailbox runs -/

namespace Session

open PermissionStore

def ZtdGuard (p : Platform) (session : Session) : SessionEvent → Prop
  | .boot zeroTouch =>
    (∀ cert, zeroTouch.certificate = .ok cert → 0 < cert.length ∧ cert.length < 2 ^ 16) ∧
      (CertStore.PersistsCert session.machine.certFlash certOwnerIndex →
        SealedInFlash p session.machine.permissions.flash ztdKeyId)
  | .mailboxes early late read =>
    session.mailboxesDone = false → Runs.Guarded (Machine.take p) (Machine.ZtdGuard p) session.machine
      (session.machine.mailboxesSteps p early late read)
  | .recovery _ => True

def ZtdKept (p : Platform) (session : Session) : SessionEvent → Prop
  | .boot zeroTouch =>
    CertStore.ZtdAsked zeroTouch (session.machine.certs.certs certZtdIndex)
      ((session.machine.boot p zeroTouch).certs.certs certZtdIndex)
  | .mailboxes early late read =>
    session.mailboxesDone = false → Runs.Guarded (Machine.take p) (Machine.ZtdKept p) session.machine
      (session.machine.mailboxesSteps p early late read)
  | .recovery recoveryId =>
    (session.machine.doDfciRecovery p recoveryId).2.certs.certs certZtdIndex =
      session.machine.certs.certs certZtdIndex

section

variable {p : Platform} (writes : ∀ name data, p.setVariable name data = .success)
  (fits : (initPermStore p).varSize ≤ maxSizeForVar) (unlisted : UnlistedId p ztdKeyId)
include writes fits unlisted

theorem ztdSafe_step (session : Session) (event : SessionEvent) (safe : session.machine.ZtdSafe)
    (guarded : session.ZtdGuard p event) : (session.step p event).machine.ZtdSafe ∧ session.ZtdKept p event := by
  cases event with
  | boot zeroTouch =>
    have whole : ∀ details, CertStore.slotIn session.machine.certFlash certZtdIndex = some details → details.Storable := by
      intro details found
      have synced := safe.ztd.synced
      rw [found, Option.getD_some] at synced
      rw [synced]
      exact safe.ztd.storable
    obtain ⟨booted, asked⟩ := Machine.boot_ztdSafe writes safe.sound.own whole guarded.1 guarded.2
    rw [safe.ztd.synced] at asked
    exact ⟨booted, asked⟩
  | mailboxes early late read =>
    have preserved : ∀ m step, Machine.ZtdSafe m → m.ZtdGuard p step →
        (m.take p step).ZtdSafe :=
      fun _ _ safe guarded => (safe.take writes fits unlisted guarded).1
    have kept : ∀ m step, Machine.ZtdSafe m → m.ZtdGuard p step →
        m.ZtdKept p step :=
      fun _ _ safe guarded => (safe.take writes fits unlisted guarded).2
    refine ⟨?_, fun pending => Runs.Guarded.shows _ preserved kept safe (guarded pending)⟩
    simp only [step]
    split
    · exact safe
    · rename_i pending
      change Machine.ZtdSafe (session.machine.mailboxes p early late read)
      rw [← Machine.run_mailboxesSteps]
      exact Runs.Guarded.invariant _ preserved safe (guarded (by simpa using pending))
  | recovery recoveryId =>
    let minted := session.machine.auth.createAuthTokenWithMapping p recoveryId
    have same : ({ session.machine with auth := minted.2 } : Machine).ZtdSafe := ⟨safe.ztd, safe.sound, safe.shut⟩
    exact same.clearDfci writes fits minted.1

/-- From a boot on, if the ZTD key is found sealed whenever the permission store is read for an Owner, no packet enrolls
Zero Touch: its slot changes at boots only. -/
theorem ztd_enrolled_at_boot_only (m : Machine) (zeroTouch : ZeroTouch) (events : List SessionEvent)
    (own : OwnAttributes m.permissions.flash)
    (whole : ∀ details, CertStore.slotIn m.certFlash certZtdIndex = some details → details.Storable)
    (first : ZtdGuard p ⟨m, true⟩ (.boot zeroTouch))
    (guarded : Runs.Guarded (step p) (ZtdGuard p) ⟨m.boot p zeroTouch, false⟩ events) :
    Runs.Guarded (step p) (ZtdKept p) ⟨m.boot p zeroTouch, false⟩ events := by
  have start : (m.boot p zeroTouch).ZtdSafe :=
    (Machine.boot_ztdSafe writes own whole first.1 first.2).1
  have stepped := ztdSafe_step writes fits unlisted
  have preserved : ∀ (session : Session) event, session.machine.ZtdSafe → session.ZtdGuard p event →
      (session.step p event).machine.ZtdSafe :=
    fun session event safe guarded => (stepped session event safe guarded).1
  exact Runs.Guarded.shows _ preserved (fun session event safe guarded => (stepped session event safe guarded).2) start
    guarded

end

def carriesCertificate : PacketStep → Bool
  | .apply _ box data => box.isIdentity && data.payloadSize != 0
  | .complete _ box _ => box.isIdentity

theorem guarded_of_certificates {p : Platform} {steps : List PacketStep}
    (certificates : steps.all carriesCertificate = true) (m : Machine) :
    Runs.Guarded (Machine.take p) (Machine.ZtdGuard p) m steps := by
  induction steps generalizing m with
  | nil => trivial
  | cons step steps ih =>
    rw [List.all_cons, Bool.and_eq_true] at certificates
    refine ⟨?_, ih certificates.2 _⟩
    obtain ⟨first, _⟩ := certificates
    cases step with
    | apply ui box data =>
      rw [carriesCertificate, Bool.and_eq_true, bne_iff_ne] at first
      cases box with
      | identity | identity2 => exact fun removes => first.2 removes.1
      | permissions | permissions2 | settings | settings2 => cases first.1
    | complete op box data =>
      cases box with
      | permissions | permissions2 => cases first
      | identity | identity2 | settings | settings2 => trivial

def ownerThenZtd : MailBox → Except Nat (List Byte)
  | .identity => .ok (enrollPacket 1 1 1)
  | .identity2 => .ok (enrollPacket 5 9 1)
  | _ => .error 14

/-- The user would confirm both, but the second is refused. -/
theorem ztd_enrolled_at_boot_only_refused :
    let start : Session := ⟨(Machine.blank ⟨[], [], nofun⟩ 0).boot keyedPlatform {}, false⟩
    let events := [SessionEvent.mailboxes confirmingUser confirmingUser ownerThenZtd, .recovery .signerOwner]
    ((Runs.run (step keyedPlatform) start events).machine.certs.certs certZtdIndex).cert = none ∧
      Runs.Guarded (step keyedPlatform) (ZtdKept keyedPlatform) start events := by
  have certificates : (Machine.mailboxesSteps keyedPlatform confirmingUser confirmingUser ownerThenZtd
      ((Machine.blank ⟨[], [], nofun⟩ 0).boot keyedPlatform {})).all carriesCertificate = true := by decide +kernel
  have unlisted : UnlistedId keyedPlatform ztdKeyId := by rintro _ _ ⟨⟩
  exact ⟨by decide +kernel, ztd_enrolled_at_boot_only (fun _ _ => rfl) (by decide +kernel) unlisted
    (Machine.blank ⟨[], [], nofun⟩ 0) {} _ nofun nofun ⟨nofun, nofun⟩
    ⟨fun _ => guarded_of_certificates certificates _, trivial, trivial⟩⟩

/-- After a reset the entry of the ZTD key is the one from before the Owner's enrolment, and the local user may enroll
Zero Touch. -/
theorem ztd_enrolled_after_reboot :
    let start : Session := ⟨(Machine.blank ⟨[], [], nofun⟩ 0).boot keyedPlatform {}, false⟩
    let events := [SessionEvent.mailboxes confirmingUser confirmingUser (Machine.identityMailbox (enrollPacket 1 1 1)),
      .boot {}, .mailboxes confirmingUser confirmingUser (Machine.identityMailbox (enrollPacket 5 9 1))]
    ((Runs.run (step keyedPlatform) start events).machine.certs.certs certZtdIndex).cert = some [9] ∧
      ¬ Runs.Guarded (step keyedPlatform) (ZtdKept keyedPlatform) start events := by
  refine ⟨by decide +kernel, ?_⟩
  rintro ⟨_, _, kept, _⟩
  have same := Machine.mailboxes_ztdKept (kept rfl)
  revert same
  decide +kernel

end Session

end Dfci
