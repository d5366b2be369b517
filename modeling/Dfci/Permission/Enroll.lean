import Dfci.Permission.Unsigned

/-! # What enrolling an identity does to the permission store -/

namespace Dfci

/-- `IDENTITY_CHANGE_TYPE` -/
inductive IdentityChangeType where
  | firstEnroll
  | enroll
  | unenroll
  deriving DecidableEq, Repr

namespace PermissionStore

open PermissionXml FirstMatch

/-- Step 3 of `IdentityChange`, for the identity that is being enrolled. -/
def ownerEnrolled (p : Platform) (certIdentity : Identity) (changeType : IdentityChangeType)
    (store : PermissionStore) : EfiStatus × PermissionStore :=
  if certIdentity = .signerOwner then
    let (status, store) := store.addRequiredPermissionEntry ztdKeyId Mask.none Mask.none
    if changeType = .firstEnroll then removeUnsignedPermissionEntries p store else (status, store)
  else
    (.success, store)

/-- Step 4 of `IdentityChange`: what a ZTD signer adds. -/
def ztdEnrolled (store : PermissionStore) : PermissionStore :=
  let store := (store.addRequiredPermissionEntry ztdRecoveryId Identity.signerZtd.bit Mask.none).2
  let store := (store.addRequiredPermissionEntry ztdUnenrollId Identity.signerZtd.bit Mask.none).2
  (store.addRequiredPermissionEntry dfciRecoveryId Mask.none Mask.none).2

/-- `IdentityChange`, with the answer of `GetIdentityProperties` for the signer's token. -/
def identityChange (p : Platform) (properties : Except EfiStatus Identity) (certIdentity : Identity)
    (changeType : IdentityChangeType) (store : PermissionStore) : EfiStatus × PermissionStore :=
  if changeType = .unenroll then
    (.success, store)
  else
    match properties with
    | .error _ => (.accessDenied, store)
    | .ok signer =>
      let (status, store) := ownerEnrolled p certIdentity changeType store
      -- a ZTD signer loses the status of the steps before
      if signer = .signerZtd then (.success, store.ztdEnrolled) else (status, store)

/-! ## What the steps of an enrolment keep, the enrolment keeps -/

section

variable {p : Platform} (holds : PermissionStore → Prop)
  (deletes : ∀ store id, holds store → holds (store.deletePermissionEntry id).2)
  (opens : ∀ store, holds store → holds { store with defaultPMask := Mask.defaultUnsigned })
include deletes opens

theorem removeUnsigned_invariant {store : PermissionStore} (initially : holds store) :
    holds (removeUnsignedPermissionEntries p store).2 := by
  have loop : ∀ elements store, holds store → holds (modifyUnsignedLoop p false elements store).2 := by
    intro elements store
    apply modifyUnsignedLoop_invariant holds
    intro _ _ input _ store
    exact deletes store input.id
  rw [removeUnsignedPermissionEntries, modifyUnsignedPermissionEntries]
  split
  · exact initially
  · split
    · exact initially
    · apply loop
      split
      · exact initially
      · exact opens store initially

theorem identityChange_invariant
    (adds : ∀ store id pMask dMask, holds store → holds (store.addRequiredPermissionEntry id pMask dMask).2)
    (properties : Except EfiStatus Identity) (certIdentity : Identity) (changeType : IdentityChangeType)
    {store : PermissionStore} (initially : holds store) :
    holds (identityChange p properties certIdentity changeType store).2 := by
  have owner : holds (ownerEnrolled p certIdentity changeType store).2 := by
    have added := adds store ztdKeyId Mask.none Mask.none initially
    rw [ownerEnrolled]
    split
    · simp only
      split
      · exact removeUnsigned_invariant holds deletes opens added
      · exact added
    · exact initially
  unfold identityChange
  split
  · exact initially
  · cases properties with
    | error status => exact initially
    | ok signer =>
      simp only
      split
      · exact adds _ _ _ _ (adds _ _ _ _ (adds _ _ _ _ owner))
      · exact owner

end

/-! ## Entries that do not open anything stay closed -/

section

variable {store : PermissionStore} {identity : Identity}

theorem GrantsNothing.addPermissionEntry (nothing : store.GrantsNothing identity) (id : SettingId) {pMask : Mask}
    (closed : pMask.has identity = false) (dMask : Mask) :
    (store.addPermissionEntry id pMask dMask).2.GrantsNothing identity := by
  refine ⟨?_, ?_⟩
  · rw [addPermissionEntry_defaultPMask]
    exact nothing.1
  · intro entry mem
    rcases mem_addPermissionEntry mem with old | new
    · exact nothing.2 entry old
    · rw [new]
      exact closed

theorem GrantsNothing.addRequired (nothing : store.GrantsNothing identity) (id : SettingId) {pMask : Mask}
    (closed : pMask.has identity = false) (dMask : Mask) :
    (store.addRequiredPermissionEntry id pMask dMask).2.GrantsNothing identity := by
  rw [addRequiredPermissionEntry]
  split
  · exact nothing.addPermissionEntry id closed dMask
  · refine ⟨nothing.1, ?_⟩
    intro entry mem
    rcases mem_modifyFirst mem with old | ⟨original, _, new⟩
    · exact nothing.2 entry old
    · rw [new]
      exact closed

theorem GrantsNothing.deletePermissionEntry (nothing : store.GrantsNothing identity) (id : SettingId) :
    (store.deletePermissionEntry id).2.GrantsNothing identity := by
  rw [PermissionStore.deletePermissionEntry]
  split
  · split
    · exact ⟨nothing.1, fun entry mem => nothing.2 entry (List.mem_of_mem_eraseP mem)⟩
    · exact nothing
  · exact nothing

theorem GrantsNothing.removeLoop (nothing : store.GrantsNothing identity) (p : Platform)
    (elements : List XmlNode) : (modifyUnsignedLoop p false elements store).2.GrantsNothing identity := by
  apply modifyUnsignedLoop_invariant (GrantsNothing · identity) _ nothing
  intro _ _ input _ store closed
  exact closed.deletePermissionEntry input.id

theorem GrantsNothing.ztdEnrolled (nothing : store.GrantsNothing .unsignedLocal) :
    store.ztdEnrolled.GrantsNothing .unsignedLocal := by
  rw [PermissionStore.ztdEnrolled]
  exact ((nothing.addRequired _ (by decide) _).addRequired _ (by decide) _).addRequired _ (by decide) _

end

/-! ## Closing the unsigned list -/

/-- The list can be taken back entry by entry: it is in the allow format and names no id that the store
drops or has an entry for already. -/
def Removable (p : Platform) : Prop :=
  ∀ permXml list, p.unsignedPermissionsFile = .ok permXml →
    unsignedPermissionsListNode p permXml = some list →
    p.unsignedListFormatAllow = true ∧
      ∀ element ∈ list.children, ∀ id, elementId p element = some id →
        id.startsWithDigit = false ∧ id ∉ requiredIds

/-- Removing a list right after it was added leaves the entries from before. -/
theorem modifyUnsignedLoop_remove {p : Platform} {elements : List XmlNode} {base : List PermissionEntry}
    (apart : ∀ element ∈ elements, ∀ id, elementId p element = some id →
      id.startsWithDigit = false ∧ id ∉ base.map PermissionEntry.id)
    (store : PermissionStore) (entries : store.entries = base ++ unsignedEntries p elements) :
    (modifyUnsignedLoop p false elements store).2 = { store with entries := base } := by
  induction elements generalizing store with
  | nil =>
    rw [unsignedEntries, List.append_nil] at entries
    rw [modifyUnsignedLoop, ← entries]
  | cons element elements ih =>
    rw [unsignedEntries] at entries
    rw [modifyUnsignedLoop]
    split at entries
    · rename_i fails
      rw [List.append_nil] at entries
      rw [← entries]
    · rename_i input reads
      obtain ⟨plain, absent⟩ := apart element List.mem_cons_self input.id (elementId_of_getInputPermission reads)
      have missing : ∀ entry ∈ base, ¬ entry.id = input.id :=
        fun entry mem same => absent (List.mem_map.mpr ⟨entry, mem, same⟩)
      simp only [Bool.false_eq_true, if_false]
      split at entries
      · rename_i empty
        rw [List.append_nil] at entries
        rw [if_pos empty, ← entries]
      · rename_i filled
        rw [if_neg filled]
        split at entries
        · rename_i storable
          -- the first entry of the id is the one this element made
          have deletes : store.deletePermissionEntry input.id =
              (.success, { store with entries := base ++ unsignedEntries p elements }) := by
            have erased := List.eraseP_append_right (p := fun entry : PermissionEntry => entry.id = input.id)
              (⟨input.id, input.pMask, input.dMask, false, storable⟩ :: unsignedEntries p elements)
              (fun entry mem => by simpa using missing entry mem)
            simp [deletePermissionEntry, validIdSize_iff.mpr storable.2, entries, erased]
          rw [deletes]
          exact ih (fun other mem => apart other (List.mem_cons_of_mem _ mem)) _ rfl
        · rename_i unstorable
          have long : validIdSize input.id = false := by
            rw [Bool.eq_false_iff]
            intro valid
            exact unstorable ⟨plain, validIdSize_iff.mp valid⟩
          rw [plain] at entries
          simp only [Bool.false_eq_true, if_false, List.append_nil] at entries
          simp [deletePermissionEntry, long, ← entries]

def enrolledEntries : List PermissionEntry :=
  [⟨ownerKeyId, 0x09, 0x80, false, storable_ownerKey⟩, ⟨ztdKeyId, 0x00, 0x00, false, storable_ztdKey⟩,
    ⟨ztdUnenrollId, 0x00, 0x00, false, storable_ztdUnenroll⟩, ⟨ztdRecoveryId, 0x00, 0x00, false, storable_ztdRecovery⟩]

theorem addRequired_ztdKey {store : PermissionStore} {others : List PermissionEntry}
    (entries : store.entries = requiredEntries ++ others) :
    store.addRequiredPermissionEntry ztdKeyId Mask.none Mask.none =
      (.success, { store with entries := enrolledEntries ++ others }) := by
  obtain ⟨version, lsv, modified, createdOn, savedOn, defaultPMask, defaultDMask, list, version_lt, lsv_le⟩ := store
  cases entries
  rfl

theorem closed_of_enrolledEntries {store : PermissionStore} (entries : store.entries = enrolledEntries)
    (default : store.defaultPMask = Mask.default) : store.GrantsNothing .unsignedLocal := by
  refine ⟨by rw [default]; decide, ?_⟩
  rw [entries]
  decide

def listedEntries (p : Platform) : List PermissionEntry :=
  match p.unsignedPermissionsFile with
  | .error _ => []
  | .ok permXml =>
    match unsignedPermissionsListNode p permXml with
    | none => []
    | some list => unsignedEntries p list.children

section

variable {p : Platform} (removable : Removable p)
include removable

theorem Removable.initPermStore_eq :
    initPermStore p = { blankStore p with entries := requiredEntries ++ listedEntries p } := by
  rw [PermissionStore.initPermStore_eq, addUnsignedPermissionEntries, modifyUnsignedPermissionEntries, listedEntries]
  cases file : p.unsignedPermissionsFile with
  | error status => rfl
  | ok permXml =>
    simp only
    cases found : unsignedPermissionsListNode p permXml with
    | none => rfl
    | some list =>
      obtain ⟨allow, _⟩ := removable permXml list file found
      simp only [allow, if_true, modifyUnsignedLoop_add]

theorem Removable.removeUnsigned (store : PermissionStore)
    (entries : store.entries = enrolledEntries ++ listedEntries p) :
    (removeUnsignedPermissionEntries p store).2 = { store with entries := enrolledEntries } := by
  rw [listedEntries] at entries
  rw [removeUnsignedPermissionEntries, modifyUnsignedPermissionEntries]
  cases file : p.unsignedPermissionsFile with
  | error status =>
    simp only [file, List.append_nil] at entries
    simp only
    rw [← entries]
  | ok permXml =>
    simp only [file] at entries
    simp only
    cases found : unsignedPermissionsListNode p permXml with
    | none =>
      simp only [found, List.append_nil] at entries
      rw [← entries]
    | some list =>
      obtain ⟨allow, apart⟩ := removable permXml list file found
      simp only [found] at entries
      simp only [allow, if_true]
      exact modifyUnsignedLoop_remove apart store entries

/-- Enrolling the first Owner takes a removable list back. -/
theorem ownerEnrolled_init_closed :
    (ownerEnrolled p .signerOwner .firstEnroll (initPermStore p)).2.GrantsNothing .unsignedLocal := by
  have added : (initPermStore p).addRequiredPermissionEntry ztdKeyId Mask.none Mask.none =
      (.success, { initPermStore p with entries := enrolledEntries ++ listedEntries p }) := by
    apply addRequired_ztdKey
    rw [removable.initPermStore_eq]
  have removed := removable.removeUnsigned
    { initPermStore p with entries := enrolledEntries ++ listedEntries p } rfl
  simp only [ownerEnrolled, if_true, added]
  rw [removed]
  refine closed_of_enrolledEntries rfl ?_
  rw [removable.initPermStore_eq]
  rfl

end

theorem GrantsNothing.ownerEnrolled {p : Platform} (removable : Removable p) {store : PermissionStore}
    (nothing : store.GrantsNothing .unsignedLocal) (certIdentity : Identity) (changeType : IdentityChangeType) :
    (PermissionStore.ownerEnrolled p certIdentity changeType store).2.GrantsNothing .unsignedLocal := by
  have closed : Mask.none.has .unsignedLocal = false := by decide
  have added := nothing.addRequired ztdKeyId closed Mask.none
  rw [PermissionStore.ownerEnrolled]
  split
  · simp only
    split
    · rw [removeUnsignedPermissionEntries, modifyUnsignedPermissionEntries]
      split
      · exact added
      · rename_i permXml file
        split
        · exact added
        · rename_i list found
          obtain ⟨allow, _⟩ := removable permXml list file found
          rw [if_pos allow]
          exact added.removeLoop p list.children
    · exact added
  · exact nothing

/-- What follows step 3 of `IdentityChange` opens nothing. -/
theorem identityChange_closed {p : Platform} {store : PermissionStore} {certIdentity : Identity}
    {changeType : IdentityChangeType} (change : changeType ≠ .unenroll)
    (closed : (PermissionStore.ownerEnrolled p certIdentity changeType store).2.GrantsNothing .unsignedLocal)
    (signer : Identity) :
    (identityChange p (.ok signer) certIdentity changeType store).2.GrantsNothing .unsignedLocal := by
  simp only [identityChange, if_neg change]
  split
  · exact closed.ztdEnrolled
  · exact closed

/-- The first Owner's enrolment leaves nothing open, whoever signs it. -/
theorem firstEnroll_closed {p : Platform} (removable : Removable p) {properties : Except EfiStatus Identity}
    (enrolls : (identityChange p properties .signerOwner .firstEnroll (initPermStore p)).1 = .success) :
    (identityChange p properties .signerOwner .firstEnroll (initPermStore p)).2.GrantsNothing .unsignedLocal := by
  have closed := ownerEnrolled_init_closed removable
  generalize initPermStore p = store at enrolls closed ⊢
  cases properties with
  | error status => simp [identityChange] at enrolls
  | ok signer =>
    have change : IdentityChangeType.firstEnroll ≠ .unenroll := by decide
    exact identityChange_closed change closed signer

theorem GrantsNothing.identityChange {p : Platform} (removable : Removable p) {store : PermissionStore}
    (nothing : store.GrantsNothing .unsignedLocal) (properties : Except EfiStatus Identity) (certIdentity : Identity)
    (changeType : IdentityChangeType) :
    (PermissionStore.identityChange p properties certIdentity changeType store).2.GrantsNothing .unsignedLocal := by
  by_cases change : changeType = .unenroll
  · simp only [PermissionStore.identityChange, if_pos change]
    exact nothing
  · cases properties with
    | error status =>
      simp only [PermissionStore.identityChange, if_neg change]
      exact nothing
    | ok signer => exact identityChange_closed change (nothing.ownerEnrolled removable certIdentity changeType) signer

end PermissionStore

end Dfci
