import Dfci.Permission.Lifecycle

/-! # Entries that no packet can change

An entry that is delegated to nobody has no signer whose packet may change it, whether or not the packet names it. It
stands until the identity manager or the platform's list names it again, or until the store is read from its variable.
With an empty `PMask` it grants nothing either. -/

namespace Dfci

namespace PermissionStore

open PermissionXml FirstMatch

def Fixed (store : PermissionStore) (id : SettingId) (pMask : Mask) : Prop :=
  (store.rights.find? fun right => right.1 = id) = some (id, pMask, Mask.none)

def Sealed (store : PermissionStore) (id : SettingId) : Prop :=
  store.Fixed id Mask.none

instance (store : PermissionStore) (id : SettingId) : Decidable (store.Sealed id) :=
  inferInstanceAs (Decidable (_ = _))

section

variable {store : PermissionStore} {id : SettingId} {pMask : Mask}

theorem fixed_iff : store.Fixed id pMask ↔
      ∃ entry, store.findPermissionEntry id = some entry ∧ entry.pMask = pMask ∧ entry.dMask = Mask.none := by
  rw [Fixed, rights, List.find?_map, findPermissionEntry_eq_find?]
  constructor
  · intro found
    obtain ⟨entry, isEntry, masks⟩ := Option.map_eq_some_iff.mp found
    simp only [Prod.mk.injEq] at masks
    exact ⟨entry, isEntry, masks.2⟩
  · rintro ⟨entry, isEntry, pMask, dMask⟩
    have same : entry.id = id := by simpa using List.find?_some isEntry
    exact Option.map_eq_some_iff.mpr ⟨entry, isEntry, by simp [same, pMask, dMask]⟩

theorem Fixed.queryPermission (fixed : store.Fixed id pMask) : store.queryPermission id = pMask := by
  obtain ⟨entry, found, isMask, _⟩ := fixed_iff.mp fixed
  rw [PermissionStore.queryPermission, found]
  exact isMask

theorem Fixed.agrees {other : PermissionStore} (fixed : store.Fixed id pMask) (agrees : other.Agrees store) :
    other.Fixed id pMask := by
  rw [Fixed, agrees.rights]
  exact fixed

theorem Fixed.congr {other : PermissionStore} (fixed : store.Fixed id pMask)
    (same : other.findPermissionEntry id = store.findPermissionEntry id) : other.Fixed id pMask := by
  rw [fixed_iff, same]
  exact fixed_iff.mp fixed

theorem findPermissionEntry_modifyEntry (store : PermissionStore) (id : SettingId)
    {change : PermissionEntry → PermissionEntry} (keepsId : ∀ entry, (change entry).id = entry.id) :
    (store.modifyEntry id change).findPermissionEntry id = (store.findPermissionEntry id).map change := by
  rw [findPermissionEntry_eq_find?, findPermissionEntry_eq_find?]
  apply find?_modifyFirst
  intro entry
  rw [keepsId]

/-! ## Operations on other ids -/

variable (store) {name : SettingId} (other : name ≠ id)
include other

theorem findPermissionEntry_addRequired_ne (pMask dMask : Mask) :
    (store.addRequiredPermissionEntry name pMask dMask).2.findPermissionEntry id = store.findPermissionEntry id := by
  rw [addRequiredPermissionEntry]
  split
  · exact findPermissionEntry_addPermissionEntry_ne store other pMask dMask
  · exact findPermissionEntry_modifyEntry_ne store other fun _ => rfl

theorem findPermissionEntry_deletePermissionEntry_ne :
    (store.deletePermissionEntry name).2.findPermissionEntry id = store.findPermissionEntry id := by
  rw [deletePermissionEntry]
  split
  · split
    · rw [findPermissionEntry_eq_find?, findPermissionEntry_eq_find?]
      apply find?_eraseP_of_apart
      intro entry isName
      rw [decide_eq_true_eq] at isName
      exact decide_eq_false (isName ▸ other)
    · rfl
  · rfl

end

/-! ## An enrolment -/

/-- `AddRequiredPermissionEntry` with an empty `DMask` fixes its id. -/
theorem fixed_addRequired (store : PermissionStore) {id : SettingId} (storable : StorableId id) (pMask : Mask) :
    (store.addRequiredPermissionEntry id pMask Mask.none).2.Fixed id pMask := by
  rw [fixed_iff, addRequiredPermissionEntry]
  cases found : store.findPermissionEntry id with
  | none =>
    rw [findPermissionEntry_eq_find?] at found
    rw [addPermissionEntry_storable storable, findPermissionEntry_eq_find?]
    refine ⟨⟨id, pMask, Mask.none, false, storable⟩, ?_, rfl, rfl⟩
    simp [List.find?_append, found]
  | some entry =>
    simp only
    rw [findPermissionEntry_modifyEntry, found]
    · exact ⟨_, rfl, rfl, rfl⟩
    · exact fun _ => rfl

theorem addRequired_of_fixed {store : PermissionStore} {id : SettingId} {pMask : Mask} (fixed : store.Fixed id pMask) :
    (store.addRequiredPermissionEntry id pMask Mask.none).2 = store := by
  obtain ⟨entry, found, isPMask, isDMask⟩ := fixed_iff.mp fixed
  have same : ∀ other, store.entries.find? (fun entry => entry.id = id) = some other →
      ({ other with pMask := pMask, dMask := Mask.none } : PermissionEntry) = other := by
    intro other isOther
    rw [findPermissionEntry_eq_find?, isOther, Option.some.injEq] at found
    rw [found, ← isPMask, ← isDMask]
  rw [addRequiredPermissionEntry, found]
  simp only [modifyEntry, modifyFirst_congr same, modifyFirst_unchanged]

theorem findPermissionEntry_addPermissionEntry {store : PermissionStore} {id : SettingId} {entry : PermissionEntry}
    (found : store.findPermissionEntry id = some entry) (name : SettingId) (pMask dMask : Mask) :
    (store.addPermissionEntry name pMask dMask).2.findPermissionEntry id = some entry := by
  rw [findPermissionEntry_eq_find?] at found
  rcases addPermissionEntry_cases store name pMask dMask with ⟨_, added⟩ | kept
  · rw [added, findPermissionEntry_eq_find?, List.find?_append, found]
    rfl
  · rw [kept, findPermissionEntry_eq_find?, found]

/-- The required entries come before those of the platform's list. -/
theorem findPermissionEntry_initPermStore {p : Platform} {id : SettingId} {entry : PermissionEntry}
    (required : requiredEntries.find? (fun entry => entry.id = id) = some entry) :
    (initPermStore p).findPermissionEntry id = some entry := by
  have loop : ∀ elements store, store.findPermissionEntry id = some entry →
      (modifyUnsignedLoop p true elements store).2.findPermissionEntry id = some entry := by
    intro elements store
    apply modifyUnsignedLoop_invariant fun store => store.findPermissionEntry id = some entry
    intro _ _ input _ store found
    exact findPermissionEntry_addPermissionEntry found input.id input.pMask input.dMask
  have start : ∀ defaultPMask, findPermissionEntry
      { blankStore p with entries := requiredEntries, defaultPMask := defaultPMask } id = some entry := by
    intro defaultPMask
    rw [findPermissionEntry_eq_find?]
    exact required
  rw [initPermStore_eq, addUnsignedPermissionEntries, modifyUnsignedPermissionEntries]
  split
  · exact start _
  · split
    · exact start _
    · apply loop
      split <;> exact start _

def UnlistedId (p : Platform) (id : SettingId) : Prop :=
  ∀ permXml list, p.unsignedPermissionsFile = .ok permXml →
    unsignedPermissionsListNode p permXml = some list → id ∉ list.children.filterMap (elementId p)

section

variable {p : Platform} {store : PermissionStore} {id : SettingId}

theorem findPermissionEntry_removeLoop {elements : List XmlNode}
    (unnamed : id ∉ elements.filterMap (elementId p)) (store : PermissionStore) :
    (modifyUnsignedLoop p false elements store).2.findPermissionEntry id = store.findPermissionEntry id := by
  apply modifyUnsignedLoop_invariant (fun after => after.findPermissionEntry id = store.findPermissionEntry id) _ rfl
  intro element mem input reads before same
  have other : input.id ≠ id := by
    rintro rfl
    exact unnamed (List.mem_filterMap.mpr ⟨element, mem, elementId_of_getInputPermission reads⟩)
  exact (findPermissionEntry_deletePermissionEntry_ne before other).trans same

theorem findPermissionEntry_removeUnsigned (unlisted : UnlistedId p id) (store : PermissionStore) :
    (removeUnsignedPermissionEntries p store).2.findPermissionEntry id = store.findPermissionEntry id := by
  rw [removeUnsignedPermissionEntries, modifyUnsignedPermissionEntries]
  cases file : p.unsignedPermissionsFile with
  | error status => rfl
  | ok permXml =>
    simp only
    cases found : unsignedPermissionsListNode p permXml with
    | none => rfl
    | some list =>
      simp only
      rw [findPermissionEntry_removeLoop (unlisted permXml list file found)]
      split <;> rfl

theorem findPermissionEntry_ztdEnrolled (store : PermissionStore) :
    store.ztdEnrolled.findPermissionEntry ztdKeyId = store.findPermissionEntry ztdKeyId := by
  rw [ztdEnrolled, findPermissionEntry_addRequired_ne _ (by decide), findPermissionEntry_addRequired_ne _ (by decide),
    findPermissionEntry_addRequired_ne _ (by decide)]

theorem findPermissionEntry_ownerEnrolled (unlisted : UnlistedId p id) (other : ztdKeyId ≠ id)
    (certIdentity : Identity) (changeType : IdentityChangeType) (store : PermissionStore) :
    (ownerEnrolled p certIdentity changeType store).2.findPermissionEntry id = store.findPermissionEntry id := by
  have added := findPermissionEntry_addRequired_ne store other Mask.none Mask.none
  rw [ownerEnrolled]
  split
  · simp only
    split
    · exact (findPermissionEntry_removeUnsigned unlisted _).trans added
    · exact added
  · rfl

/-- Enrolling an Owner seals the ZTD key. -/
theorem sealed_ownerEnrolled (unlisted : UnlistedId p ztdKeyId) (changeType : IdentityChangeType)
    (store : PermissionStore) : (ownerEnrolled p .signerOwner changeType store).2.Sealed ztdKeyId := by
  have added := fixed_addRequired store storable_ztdKey Mask.none
  simp only [ownerEnrolled, if_true]
  split
  · exact added.congr (findPermissionEntry_removeUnsigned unlisted _)
  · exact added

/-- An enrolment that goes through leaves the ZTD key sealed if it was, and seals it if it is the Owner's. -/
theorem sealed_identityChange (unlisted : UnlistedId p ztdKeyId) {properties : Except EfiStatus Identity}
    {certIdentity : Identity} {changeType : IdentityChangeType}
    (shut : certIdentity = .signerOwner ∧ changeType ≠ .unenroll ∧ (∃ signer, properties = .ok signer) ∨
      store.Sealed ztdKeyId) : (identityChange p properties certIdentity changeType store).2.Sealed ztdKeyId := by
  by_cases unenrolls : changeType = .unenroll
  · have stays : store.Sealed ztdKeyId := shut.resolve_left fun enrolls => enrolls.2.1 unenrolls
    simp only [identityChange, if_pos unenrolls]
    exact stays
  · simp only [identityChange, if_neg unenrolls]
    cases properties with
    | error status =>
      have signed : ¬ ∃ signer, Except.error status = (.ok signer : Except EfiStatus Identity) := by simp
      exact shut.resolve_left fun enrolls => signed enrolls.2.2
    | ok signer =>
      have owner : (ownerEnrolled p certIdentity changeType store).2.Sealed ztdKeyId := by
        by_cases isOwner : certIdentity = .signerOwner
        · subst isOwner
          exact sealed_ownerEnrolled unlisted changeType store
        · rw [ownerEnrolled, if_neg isOwner]
          exact shut.resolve_left fun enrolls => isOwner enrolls.1
      simp only
      split
      · exact owner.congr (findPermissionEntry_ztdEnrolled _)
      · exact owner

theorem fixed_ztdEnrolled (store : PermissionStore) : store.ztdEnrolled.Fixed ztdRecoveryId Identity.signerZtd.bit ∧
      store.ztdEnrolled.Fixed ztdUnenrollId Identity.signerZtd.bit ∧
      store.ztdEnrolled.Fixed dfciRecoveryId Mask.none := by
  have recovery := fixed_addRequired store storable_ztdRecovery Identity.signerZtd.bit
  rw [ztdEnrolled]
  refine ⟨?_, ?_, fixed_addRequired _ (by decide) _⟩
  · apply recovery.congr
    rw [findPermissionEntry_addRequired_ne _ (by decide), findPermissionEntry_addRequired_ne _ (by decide)]
  · exact (fixed_addRequired _ storable_ztdUnenroll _).congr (findPermissionEntry_addRequired_ne _ (by decide) _ _)

/-- The entries as an enrolment leaves them, for whoever approved it. -/
structure EnrolledBy (store : PermissionStore) (certIdentity approver : Identity) : Prop where
  owner : certIdentity = .signerOwner → store.Fixed ztdKeyId Mask.none
  recovery : approver = .signerZtd → store.Fixed ztdRecoveryId Identity.signerZtd.bit
  unenroll : approver = .signerZtd → store.Fixed ztdUnenrollId Identity.signerZtd.bit
  dfciRecovery : approver = .signerZtd → store.Fixed dfciRecoveryId Mask.none

theorem EnrolledBy.agrees {certIdentity approver : Identity} {other : PermissionStore}
    (enrolled : store.EnrolledBy certIdentity approver) (agrees : other.Agrees store) :
    other.EnrolledBy certIdentity approver :=
  ⟨fun is => (enrolled.owner is).agrees agrees, fun is => (enrolled.recovery is).agrees agrees,
    fun is => (enrolled.unenroll is).agrees agrees, fun is => (enrolled.dfciRecovery is).agrees agrees⟩

/-- Unless it removes the platform's list, an enrolment changes no entry exactly where an earlier one was approved alike. -/
theorem agrees_identityChange_iff {certIdentity approver : Identity} {changeType : IdentityChangeType}
    (enrolls : changeType ≠ .unenroll) (noList : certIdentity = .signerOwner → changeType = .firstEnroll →
      ∀ permXml, p.unsignedPermissionsFile ≠ .ok permXml) :
    (store.identityChange p (.ok approver) certIdentity changeType).2.Agrees store ↔
      store.EnrolledBy certIdentity approver := by
  have owned : certIdentity = .signerOwner → (ownerEnrolled p certIdentity changeType store).2 =
      (store.addRequiredPermissionEntry ztdKeyId Mask.none Mask.none).2 := by
    intro isOwner
    simp only [ownerEnrolled, if_pos isOwner]
    split
    · rename_i isFirst
      rw [removeUnsignedPermissionEntries, modifyUnsignedPermissionEntries]
      split
      · rfl
      · exact absurd ‹_› (noList isOwner isFirst _)
    · rfl
  have others : certIdentity ≠ .signerOwner → (ownerEnrolled p certIdentity changeType store).2 = store := by
    intro notOwner
    rw [ownerEnrolled, if_neg notOwner]
  -- the store that the entries of ZTD are added to
  simp only [identityChange, if_neg enrolls]
  generalize (ownerEnrolled p certIdentity changeType store).2 = base at owned others ⊢
  constructor
  · intro agrees
    refine EnrolledBy.agrees ?_ agrees.symm
    have keyed : certIdentity = .signerOwner → base.Fixed ztdKeyId Mask.none := fun isOwner =>
      owned isOwner ▸ fixed_addRequired store storable_ztdKey Mask.none
    by_cases isZtd : approver = .signerZtd
    · simp only [if_pos isZtd]
      obtain ⟨recovery, unenroll, dfciRecovery⟩ := fixed_ztdEnrolled base
      exact ⟨fun isOwner => (keyed isOwner).congr (findPermissionEntry_ztdEnrolled _), fun _ => recovery, fun _ => unenroll,
        fun _ => dfciRecovery⟩
    · simp only [if_neg isZtd]
      exact ⟨keyed, fun is => absurd is isZtd, fun is => absurd is isZtd, fun is => absurd is isZtd⟩
  · intro enrolled
    have kept : base = store := by
      by_cases isOwner : certIdentity = .signerOwner
      · rw [owned isOwner, addRequired_of_fixed (enrolled.owner isOwner)]
      · exact others isOwner
    rw [kept]
    split
    · rename_i isZtd
      simp only [ztdEnrolled, addRequired_of_fixed (enrolled.recovery isZtd), addRequired_of_fixed (enrolled.unenroll isZtd),
        addRequired_of_fixed (enrolled.dfciRecovery isZtd)]
      exact .refl store
    · exact .refl store

/-! ## The grant of Zero Touch

`Dfci.ZtdUnenroll.Enable` starts out with nobody in its mask. -/

/-- Nobody is delegated the entry of `Dfci.ZtdUnenroll.Enable`, and nobody but ZTD is in its mask. -/
def AtMostZtd (store : PermissionStore) : Prop :=
  store.Fixed ztdUnenrollId Mask.none ∨ store.Fixed ztdUnenrollId Identity.signerZtd.bit

theorem atMostZtd_initPermStore (p : Platform) : (initPermStore p).AtMostZtd :=
  .inl (fixed_iff.mpr ⟨⟨ztdUnenrollId, 0x00, 0x00, false, storable_ztdUnenroll⟩,
    findPermissionEntry_initPermStore (by decide), rfl, rfl⟩)

/-- An enrolment leaves the grant as it is, or makes it. -/
theorem findPermissionEntry_identityChange (unlisted : UnlistedId p ztdUnenrollId)
    (properties : Except EfiStatus Identity) (certIdentity : Identity) (changeType : IdentityChangeType)
    (store : PermissionStore) :
    let changed := (identityChange p properties certIdentity changeType store).2
    changed.findPermissionEntry ztdUnenrollId = store.findPermissionEntry ztdUnenrollId ∨
      changed.Fixed ztdUnenrollId Identity.signerZtd.bit := by
  have owner := findPermissionEntry_ownerEnrolled unlisted (by decide) certIdentity changeType store
  simp only [identityChange]
  split
  · exact .inl rfl
  · cases properties with
    | error status => exact .inl rfl
    | ok signer =>
      simp only
      split
      · exact .inr (fixed_ztdEnrolled _).2.1
      · exact .inl owner

theorem AtMostZtd.identityChange (unlisted : UnlistedId p ztdUnenrollId) (atMost : store.AtMostZtd)
    (properties : Except EfiStatus Identity) (certIdentity : Identity) (changeType : IdentityChangeType) :
    (identityChange p properties certIdentity changeType store).2.AtMostZtd := by
  rcases findPermissionEntry_identityChange unlisted properties certIdentity changeType store with same | granted
  · exact atMost.imp (·.congr same) (·.congr same)
  · exact .inr granted

/-! ## A packet -/

/-- An entry that is not delegated to the signer is out of reach of every element. -/
theorem findPermissionEntry_applyElements {identity : Identity} {elements : List XmlNode} {after : PermissionStore}
    {results : List (SettingId × EfiStatus)} {entry : PermissionEntry} (found : store.findPermissionEntry id = some entry)
    (undelegated : entry.dMask.has identity = false)
    (applies : applyElements p identity elements store = .ok (after, results)) :
    after.findPermissionEntry id = some entry := by
  refine applyElements_invariant (fun after => after.findPermissionEntry id = some entry) ?_ found applies
  intro _ _ input _ before after status step isEntry
  -- an element for the entry itself is denied, for want of a delegation
  by_cases same : input.id = id
  · subst same
    obtain ⟨other, isOther, allowed, _⟩ | ⟨_, missing, _⟩ | ⟨missing, _⟩ | ⟨_, _, rfl⟩ := applyElement_cases step
    · cases isEntry.symm.trans isOther
      rw [undelegated] at allowed
      cases allowed
    · cases isEntry.symm.trans missing
    · cases isEntry.symm.trans missing
    · exact isEntry
  · rw [findPermissionEntry_applyElement_ne same step, isEntry]

def UnnamedId (p : Platform) (data : Packet) (id : SettingId) : Prop :=
  ∀ packet list append, readPacketNode p data.payloadText = .ok packet →
    readListNode data.v1Mode packet = .ok (list, append) → id ∉ list.children.filterMap (elementId p)

theorem findPermissionEntry_markForReplacement {entry : PermissionEntry} {identity : Identity} (append : Bool)
    (found : store.findPermissionEntry id = some entry) (undelegated : entry.dMask.has identity = false) :
    (store.markForReplacement identity append).findPermissionEntry id = some entry := by
  have notHighest : entry.dMask.highestUserIs identity = false := by
    rw [Bool.eq_false_iff]
    intro highest
    rw [Mask.has_of_highestUserIs highest] at undelegated
    cases undelegated
  rw [findPermissionEntry_eq_find?] at found ⊢
  cases append with
  | true => exact found
  | false =>
    have sameId : ∀ entry : PermissionEntry, (if entry.dMask.highestUserIs identity then
        { entry with markedForDeletion := true } else entry).id = entry.id := by
      intro entry
      split <;> rfl
    simp only [markForReplacement, Bool.false_eq_true, if_false, markPermissionEntriesForDeletion, List.find?_map,
      Function.comp_def, sameId, found, Option.map_some, notHighest]

/-- No packet changes a fixed entry, and nobody's packet marks it. -/
theorem Fixed.applyPermissions {v1Mode : Bool} {xml : List Byte} {identity : Identity} {applied : AppliedPermissions}
    {pMask : Mask} (fixed : store.Fixed id pMask) (unmarked : store.Unmarked)
    (applies : store.applyPermissions p v1Mode identity xml = .ok applied) : applied.store.Fixed id pMask := by
  obtain ⟨entry, found, isMask, dMask⟩ := fixed_iff.mp fixed
  obtain ⟨packet, versions, list, append, defaulted, final, results, isPacket, _, isList, defaults, elements, _, result⟩ :=
    applyPermissions_eq_ok applies
  have undelegated : entry.dMask.has identity = false := by simp [dMask]
  -- through the marks, the defaults, the elements and the sweep
  have marked := findPermissionEntry_markForReplacement append found undelegated
  have start : defaulted.findPermissionEntry id = some entry := by
    rw [findPermissionEntry_eq_find?, applyDefaults_entries defaults, ← marked, findPermissionEntry_eq_find?]
    rfl
  have kept := findPermissionEntry_applyElements start undelegated elements
  rw [findPermissionEntry_eq_find?] at kept
  have notMarked : entry.markedForDeletion = false := unmarked entry (findPermissionEntry_eq_some found).1
  rw [result, fixed_iff, findPermissionEntry_eq_find?]
  exact ⟨entry, find?_filter_of_find? kept (by simp [notMarked]), isMask, dMask⟩

theorem AtMostZtd.applyPermissions {v1Mode : Bool} {identity : Identity} {xml : List Byte}
    {applied : AppliedPermissions} (atMost : store.AtMostZtd) (unmarked : store.Unmarked)
    (applies : store.applyPermissions p v1Mode identity xml = .ok applied) : applied.store.AtMostZtd :=
  atMost.imp (·.applyPermissions unmarked applies) (·.applyPermissions unmarked applies)

end

/-! ## The variable -/

def FixedInFlash (p : Platform) (flash : Option Variable) (id : SettingId) (pMask : Mask) : Prop :=
  ∃ store, Persisted p flash store ∧ store.Fixed id pMask

def SealedInFlash (p : Platform) (flash : Option Variable) (id : SettingId) : Prop :=
  FixedInFlash p flash id Mask.none

end PermissionStore

namespace PermissionState

open PermissionStore

def Fixed (perms : PermissionState) (id : SettingId) (pMask : Mask) : Prop :=
  ∃ store, perms.store = some store ∧ store.Fixed id pMask

def Sealed (perms : PermissionState) (id : SettingId) : Prop :=
  perms.Fixed id Mask.none

section

variable {p : Platform} {perms : PermissionState} {id : SettingId} {pMask : Mask}

theorem Sealed.identityChange (unlisted : UnlistedId p ztdKeyId) (shut : perms.Sealed ztdKeyId)
    (properties : Except EfiStatus Identity) (certIdentity : Identity) (changeType : IdentityChangeType) :
    (perms.identityChange p properties certIdentity changeType).2.Sealed ztdKeyId := by
  obtain ⟨store, isStore, shut⟩ := shut
  simp only [PermissionState.identityChange, isStore]
  exact ⟨_, rfl, sealed_identityChange unlisted (.inr shut)⟩

theorem fixed_reload (sound : perms.Sound) (persists : FixedInFlash p perms.flash id pMask) :
    (perms.reload p).2.Fixed id pMask := by
  obtain ⟨store, persisted, fixed⟩ := persists
  obtain ⟨loaded, isLoaded, agrees⟩ := (Holds.reload sound.own persisted).memory
  exact ⟨loaded, isLoaded, fixed.agrees agrees⟩

theorem fixed_boot {flash : Option Variable} (own : OwnAttributes flash)
    (persists : FixedInFlash p flash id pMask) : (boot p true flash).Fixed id pMask := by
  obtain ⟨store, persisted, fixed⟩ := persists
  obtain ⟨loaded, after, loads, agrees, _⟩ := persisted.loads own
  simp only [boot, if_true, reload, loads]
  exact ⟨loaded, rfl, fixed.agrees agrees⟩

/-- A packet keeps an entry fixed, unless its document makes the store be read again. -/
theorem Fixed.packet (sound : perms.Sound) {data : Packet} (certs : CertStore) (auth : AuthState)
    (fixed : perms.Fixed id pMask)
    (reloads : (∃ identity store failure, permissionsSigner p certs auth data = some identity ∧
        perms.store = some store ∧ store.applyPermissions p data.v1Mode identity data.payloadText = .error failure) →
      FixedInFlash p perms.flash id pMask) :
    (applyNewPermissionsPacket p certs auth perms data).permissions.Fixed id pMask := by
  obtain ⟨current, isCurrent, fixedNow⟩ := fixed
  rcases step_packet p perms certs auth data with
    same | ⟨identity, store, failure, signs, isStore, fails, reloaded⟩ |
      ⟨identity, store, applied, _, isStore, applies, replaced⟩
  · have kept : (applyNewPermissionsPacket p certs auth perms data).permissions = perms := same
    rw [kept]
    exact ⟨current, isCurrent, fixedNow⟩
  · have restored : (applyNewPermissionsPacket p certs auth perms data).permissions =
        (perms.reload p).2 := reloaded
    rw [restored]
    exact fixed_reload sound (reloads ⟨identity, store, failure, signs, isStore, fails⟩)
  · have changed : (applyNewPermissionsPacket p certs auth perms data).permissions =
        { perms with store := some { applied.store with modified := true } } := replaced
    rw [changed]
    rw [isCurrent, Option.some.injEq] at isStore
    subst isStore
    exact ⟨_, rfl, fixedNow.applyPermissions (sound.unmarked current isCurrent) applies⟩

/-- A commit keeps an entry fixed. A restore, or a commit that fails, reads the store again. -/
theorem Fixed.lkg (sound : perms.Sound) {op : LkgOperation} {data : Packet} (fixed : perms.Fixed id pMask)
    (reloads : data.lkgDirty = true → ¬ (op = .commit ∧ (perms.save p).1 = .success) →
      FixedInFlash p perms.flash id pMask) : (permissionsLkgHandler p op perms data).2.1.Fixed id pMask := by
  have stepped := step_lkg p perms op data
  change (step p perms (.lkg op data)).Fixed id pMask
  rw [stepped]
  split
  · rename_i dirty
    split
    · obtain ⟨store, isStore, fixed⟩ := fixed
      simp only [save, isStore]
      exact ⟨_, rfl, fixed.agrees (saveToFlash_agrees p perms.flash store)⟩
    · rename_i notSaved
      exact fixed_reload sound (reloads dirty notSaved)
  · exact fixed

end

end PermissionState

end Dfci
