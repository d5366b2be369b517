import Dfci.Permission.Lifecycle

/-! # Unsigned packets write nothing once an Owner is enrolled -/

namespace Dfci

namespace PermissionStore

open PermissionXml FirstMatch

/-- No mask of the document, its default included, gives the identity write access. -/
def DocumentGrantsNothing (p : Platform) (v1Mode : Bool) (identity : Identity) (xml : List Byte) : Prop :=
  ∀ packet list append, readPacketNode p xml = .ok packet → readListNode v1Mode packet = .ok (list, append) →
    (∀ pMask dMask, getPermissionsListDefaultPMask list = .ok (pMask, dMask) → pMask.has identity = false) ∧
    ∀ element ∈ list.children, ∀ input, getInputPermission p element = .ok input →
      input.pMask.has identity = false

section

variable {p : Platform} {signer identity : Identity}

theorem GrantsNothing.applyDefaults {store after : PermissionStore} {list : XmlNode}
    (nothing : store.GrantsNothing identity) (applies : store.applyDefaults signer list = .ok after)
    (closed : ∀ pMask dMask, getPermissionsListDefaultPMask list = .ok (pMask, dMask) →
      pMask.has identity = false) : after.GrantsNothing identity := by
  obtain rfl | ⟨pMask, dMask, reads, _, rfl⟩ := applyDefaults_cases applies
  · exact nothing
  · exact ⟨closed pMask dMask reads, nothing.2⟩

theorem GrantsNothing.applyElement {store after : PermissionStore} {input : InputPermission} {status : EfiStatus}
    (nothing : store.GrantsNothing identity) (applies : store.applyElement signer input = .ok (status, after))
    (closed : input.pMask.has identity = false) : after.GrantsNothing identity := by
  obtain ⟨_, _, _, _, rfl⟩ | ⟨storable, _, _, _, rfl⟩ | ⟨_, _, _, _, rfl⟩ | ⟨_, _, rfl⟩ := applyElement_cases applies
  · refine ⟨nothing.1, ?_⟩
    intro entry mem
    rcases mem_modifyFirst mem with old | ⟨original, _, new⟩
    · exact nothing.2 entry old
    · rw [new]
      exact closed
  · have added := nothing.addPermissionEntry input.id closed (newDMask signer input)
    rwa [addPermissionEntry_storable storable] at added
  · exact nothing
  · exact nothing

theorem GrantsNothing.applyElements {store after : PermissionStore} {elements : List XmlNode}
    {results : List (SettingId × EfiStatus)} (nothing : store.GrantsNothing identity)
    (applies : applyElements p signer elements store = .ok (after, results))
    (closed : ∀ element ∈ elements, ∀ input, getInputPermission p element = .ok input →
      input.pMask.has identity = false) : after.GrantsNothing identity :=
  applyElements_invariant (GrantsNothing · identity)
    (fun element mem input reads _ _ _ step held => held.applyElement step (closed element mem input reads))
    nothing applies

theorem GrantsNothing.markForReplacement {store : PermissionStore} (nothing : store.GrantsNothing identity)
    (append : Bool) : (store.markForReplacement signer append).GrantsNothing identity := by
  refine ⟨by simpa using nothing.1, ?_⟩
  intro entry mem
  cases append with
  | true => exact nothing.2 entry mem
  | false =>
    obtain ⟨original, inStore, same⟩ := List.mem_map.mp mem
    rw [← same]
    split
    · exact nothing.2 original inStore
    · exact nothing.2 original inStore

theorem GrantsNothing.applyPermissions {store : PermissionStore} {v1Mode : Bool} {xml : List Byte}
    {applied : AppliedPermissions} (nothing : store.GrantsNothing identity)
    (applies : store.applyPermissions p v1Mode signer xml = .ok applied)
    (closed : DocumentGrantsNothing p v1Mode identity xml) : applied.store.GrantsNothing identity := by
  obtain ⟨packet, versions, list, append, defaulted, final, results, readsPacket, _, readsList, defaults, elements, _,
    result⟩ := applyPermissions_eq_ok applies
  obtain ⟨defaultClosed, elementsClosed⟩ := closed packet list append readsPacket readsList
  have marked : ((store.markForReplacement signer append).setVersions versions).GrantsNothing identity :=
    nothing.markForReplacement append
  have looped := (marked.applyDefaults defaults defaultClosed).applyElements elements elementsClosed
  rw [result]
  exact ⟨looped.1, fun entry mem => looped.2 entry (List.mem_of_mem_filter mem)⟩

end

theorem Agrees.grantsNothing {first second : PermissionStore} {identity : Identity} (agrees : first.Agrees second)
    (nothing : second.GrantsNothing identity) : first.GrantsNothing identity := by
  refine ⟨by rw [agrees.defaultPMask]; exact nothing.1, ?_⟩
  intro entry mem
  have inRights : (entry.id, entry.pMask, entry.dMask) ∈ second.rights := by
    rw [← agrees.rights]
    exact List.mem_map.mpr ⟨entry, mem, rfl⟩
  obtain ⟨other, inSecond, same⟩ := List.mem_map.mp inRights
  have samePMask : other.pMask = entry.pMask := congrArg (fun right => right.2.1) same
  rw [← samePMask]
  exact nothing.2 other inSecond

end PermissionStore

namespace PermissionState

open PermissionStore

def reloads (p : Platform) (perms : PermissionState) : PermissionEvent → Bool
  | .identityChange _ _ _ => false
  | .packet certs auth data =>
    match permissionsSigner p certs auth data, perms.store with
    | some identity, some store =>
      !(store.applyPermissions p data.v1Mode identity data.payloadText).toOption.isSome
    | _, _ => false
  | .lkg .restore data => data.lkgDirty
  | .lkg .commit data => data.lkgDirty && (perms.save p).1.isError
  | .reboot => true

def commits (p : Platform) (perms : PermissionState) : PermissionEvent → Bool
  | .lkg .commit data =>
    data.lkgDirty && !(perms.save p).1.isError && perms.store.any PermissionStore.modified
  | _ => false

def recordedStep (p : Platform) (state : PermissionState × Bool) (event : PermissionEvent) :
    PermissionState × Bool :=
  (step p state.1 event, state.2 || commits p state.1 event)

/-- The event grants nothing to unsigned packets, and loads the store only after a commit. -/
def KeepsClosed (p : Platform) (state : PermissionState × Bool) (event : PermissionEvent) : Prop :=
  (reloads p state.1 event = true → state.2 = true) ∧
    ∀ certs auth data, event = .packet certs auth data →
      DocumentGrantsNothing p data.v1Mode .unsignedLocal data.payloadText

structure Closed (p : Platform) (state : PermissionState × Bool) : Prop where
  own : OwnAttributes state.1.flash
  memory : ∀ store, state.1.store = some store → store.GrantsNothing .unsignedLocal ∧ store.Unmarked
  flashed : state.2 = true → ∃ kept, Persisted p state.1.flash kept ∧ kept.GrantsNothing .unsignedLocal

section

variable {p : Platform} {perms : PermissionState} {saved : Bool}

section

variable (closed : Closed p (perms, saved))
include closed

theorem Closed.reload (isSaved : saved = true) (later : Bool) : Closed p ((perms.reload p).2, later) := by
  obtain ⟨kept, persisted, nothing⟩ := closed.flashed isSaved
  obtain ⟨loaded, flash, loads, agrees, unmarked, stays, own⟩ := persisted.loads closed.own
  simp only [PermissionState.reload, loads]
  refine ⟨own, ?_, fun _ => ⟨kept, stays, nothing⟩⟩
  intro store same
  cases same
  exact ⟨agrees.grantsNothing nothing, unmarked⟩

theorem Closed.boot (isSaved : saved = true) (later : Bool) :
    Closed p (PermissionState.boot p true perms.flash, later) := by
  have reloaded := closed.reload isSaved later
  obtain ⟨kept, persisted, _⟩ := closed.flashed isSaved
  obtain ⟨loaded, flash, loads, _⟩ := persisted.loads closed.own
  simp only [PermissionState.reload, loads] at reloaded
  simpa only [PermissionState.boot, if_true, PermissionState.reload, loads] using reloaded

theorem Closed.commit (succeeds : (perms.save p).1 = .success) :
    Closed p ((perms.save p).2, saved || perms.store.any PermissionStore.modified) := by
  obtain ⟨memory, flash⟩ := perms
  cases memory with
  | none => contradiction
  | some store =>
    obtain ⟨nothing, unmarked⟩ := closed.memory store rfl
    simp only [PermissionState.save] at succeeds ⊢
    refine ⟨saveToFlash_ownAttributes p closed.own store, ?_, ?_⟩
    · intro stored same
      cases same
      refine ⟨(saveToFlash_agrees p flash store).grantsNothing nothing, ?_⟩
      intro entry mem
      rw [saveToFlash_entries] at mem
      exact unmarked entry mem
    · intro isSaved
      cases modified : store.modified with
      | true => exact ⟨store, saveToFlash_persisted closed.own modified succeeds, nothing⟩
      | false =>
        have untouched : saveToFlash p flash store = (.success, store, flash) := by
          simp [saveToFlash, modified]
        rw [untouched]
        exact closed.flashed (by simpa [modified] using isSaved)

theorem Closed.packet (certs : CertStore) (auth : AuthState) (data : Packet)
    (keeps : KeepsClosed p (perms, saved) (.packet certs auth data)) :
    Closed p (PermissionState.step p perms (.packet certs auth data), saved) := by
  rcases step_packet p perms certs auth data with
    same | ⟨identity, store, failure, signs, present, fails, reloaded⟩ |
      ⟨identity, store, applied, signs, present, applies, replaced⟩
  · rw [same]
    exact closed
  · rw [reloaded]
    apply closed.reload
    apply keeps.1
    simp [reloads, signs, present, fails, Except.toOption]
  · rw [replaced]
    refine ⟨closed.own, ?_, closed.flashed⟩
    intro stored same
    cases same
    obtain ⟨nothing, _⟩ := closed.memory store present
    exact ⟨nothing.applyPermissions applies (keeps.2 certs auth data rfl), applyPermissions_unmarked applies⟩

end

theorem Closed.step (removable : Removable p) {state : PermissionState × Bool} {event : PermissionEvent}
    (closed : Closed p state) (keeps : KeepsClosed p state event) : Closed p (recordedStep p state event) := by
  obtain ⟨perms, saved⟩ := state
  cases event with
  | identityChange properties certIdentity changeType =>
    obtain ⟨memory, flash⟩ := perms
    cases memory with
    | none => simpa [recordedStep, PermissionState.step, commits, PermissionState.identityChange] using closed
    | some store =>
      obtain ⟨nothing, unmarked⟩ := closed.memory store rfl
      refine ⟨closed.own, ?_, by
        simpa [recordedStep, commits, PermissionState.step, PermissionState.identityChange] using closed.flashed⟩
      intro stored same
      cases same
      exact ⟨nothing.identityChange removable properties certIdentity changeType,
        unmarked.identityChange properties certIdentity changeType⟩
  | packet certs auth data =>
    simpa [recordedStep, commits] using closed.packet certs auth data keeps
  | lkg op data =>
    rw [recordedStep, step_lkg]
    cases dirty : data.lkgDirty with
    | false => cases op <;> simpa [commits, dirty] using closed
    | true =>
      cases op with
      | restore =>
        have isSaved : saved = true := keeps.1 (by simp [reloads, dirty])
        simpa [commits] using closed.reload isSaved saved
      | commit =>
        cases succeeds : (perms.save p).1 with
        | success => simpa [commits, dirty, succeeds] using closed.commit succeeds
        | error code =>
          have isSaved : saved = true := keeps.1 (by simp [reloads, dirty, succeeds])
          simpa [commits, dirty, succeeds] using closed.reload isSaved saved
  | reboot =>
    have isSaved : saved = true := keeps.1 rfl
    simpa [recordedStep, PermissionState.step, commits] using closed.boot isSaved saved

theorem run_recordedStep (state : PermissionState × Bool) (events : List PermissionEvent) :
    (Runs.run (recordedStep p) state events).1 = Runs.run (PermissionState.step p) state.1 events := by
  induction events generalizing state with
  | nil => rfl
  | cons event events ih => exact ih _

end

/-- Once the first Owner is enrolled on a platform whose list can be taken back, unsigned packets write no
setting, as long as no packet grants it and the store is not loaded before it was committed. -/
theorem unsigned_closed_while_enrolled {p : Platform} (removable : Removable p)
    {flash : Option Variable} (own : OwnAttributes flash) {properties : Except EfiStatus Identity}
    {enrolled : PermissionState} (enrolls : PermissionState.identityChange p properties .signerOwner .firstEnroll
      ⟨some (initPermStore p), flash⟩ = (.success, enrolled)) {events : List PermissionEvent}
    (keeps : Runs.Guarded (recordedStep p) (KeepsClosed p) (enrolled, false) events)
    {store : PermissionStore} (present : (Runs.run (PermissionState.step p) enrolled events).store = some store)
    (groups : List Group) (id : SettingId) : hasWritePermissions groups store .unsignedLocal id = false := by
  have closed : Closed p (enrolled, false) := by
    simp only [PermissionState.identityChange, Prod.mk.injEq] at enrolls
    obtain ⟨succeeds, rfl⟩ := enrolls
    refine ⟨own, ?_, (by simp)⟩
    intro stored same
    cases same
    exact ⟨firstEnroll_closed removable succeeds,
      (initPermStore_unmarked p).identityChange properties .signerOwner .firstEnroll⟩
  have final := keeps.invariant (recordedStep p)
    (fun state event closed keeps => Closed.step removable closed keeps) closed
  rw [← run_recordedStep (enrolled, false) events] at present
  exact (final.memory store present).1.hasWritePermissions groups id

def disallowPlatform : Platform :=
  unsignedListPlatform false [permissionElement "Device.PlatformSetting1.Enable" "1" "0"]

/-- In the disallow format the settings that are not listed stay open after the enrolment. -/
theorem unlisted_open_after_enroll :
    (PermissionStore.identityChange disallowPlatform (.ok .local) .signerOwner .firstEnroll
      (initPermStore disallowPlatform)).1 = .success ∧
    hasWritePermissions [] (PermissionStore.identityChange disallowPlatform (.ok .local) .signerOwner .firstEnroll
      (initPermStore disallowPlatform)).2 .unsignedLocal (.ofString "Device.PlatformSetting2.Enable") = true := by
  constructor
  · decide +kernel
  · decide +kernel

def allowPlatform : Platform :=
  unsignedListPlatform true [permissionElement "Device.PlatformSetting1.Enable" "3" "0"]

theorem removable_allowPlatform : Removable allowPlatform := by
  intro permXml list file found
  cases file
  cases found
  refine ⟨rfl, ?_⟩
  intro element mem id named
  rw [List.mem_singleton.mp mem] at named
  cases named
  decide

def allowEnrolled : PermissionState :=
  (PermissionState.identityChange allowPlatform (.ok .local) .signerOwner .firstEnroll
    ⟨some (initPermStore allowPlatform), none⟩).2

def commitAndReboot : List PermissionEvent :=
  [.lkg .commit { Packet.allocated 0 0 with lkgDirty := true }, .reboot]

theorem commitAndReboot_keepsClosed :
    Runs.Guarded (recordedStep allowPlatform) (KeepsClosed allowPlatform) (allowEnrolled, false) commitAndReboot := by
  have committed : commits allowPlatform allowEnrolled
      (.lkg .commit { Packet.allocated 0 0 with lkgDirty := true }) = true := by
    decide +kernel
  have stays : reloads allowPlatform allowEnrolled
      (.lkg .commit { Packet.allocated 0 0 with lkgDirty := true }) = false := by
    decide +kernel
  refine ⟨⟨?_, fun _ _ _ same => by cases same⟩, ⟨?_, fun _ _ _ same => by cases same⟩, trivial⟩
  · intro reloaded
    rw [stays] at reloaded
    contradiction
  · intro _
    rw [recordedStep, committed]
    rfl

/-- An enrolment on the allow platform that is committed before the next boot. -/
theorem unsigned_closed_after_commit_and_reboot :
    ∃ store, (Runs.run (PermissionState.step allowPlatform) allowEnrolled commitAndReboot).store = some store ∧
      ∀ groups id, hasWritePermissions groups store .unsignedLocal id = false := by
  have enrolls : PermissionState.identityChange allowPlatform (.ok .local) .signerOwner .firstEnroll
      ⟨some (initPermStore allowPlatform), none⟩ = (.success, allowEnrolled) :=
    Prod.ext (by decide +kernel) rfl
  have own : OwnAttributes none := by
    intro var same
    cases same
  obtain ⟨store, present⟩ :
      ∃ store, (Runs.run (PermissionState.step allowPlatform) allowEnrolled commitAndReboot).store = some store :=
    Option.isSome_iff_exists.mp (by decide +kernel)
  exact ⟨store, present,
    unsigned_closed_while_enrolled removable_allowPlatform own enrolls commitAndReboot_keepsClosed present⟩

end PermissionState

end Dfci
