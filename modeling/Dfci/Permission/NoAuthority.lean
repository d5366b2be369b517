import Dfci.Permission.Lifecycle

/-! # Permission packets whose signer has no delegated authority -/

namespace Dfci

namespace PermissionStore

open PermissionXml

structure Undelegated (identity : Identity) (store : PermissionStore) : Prop where
  default : store.defaultDMask.has identity = false
  entries : ∀ entry ∈ store.entries, entry.dMask.has identity = false

instance (identity : Identity) (store : PermissionStore) : Decidable (Undelegated identity store) :=
  decidable_of_iff (store.defaultDMask.has identity = false ∧ ∀ entry ∈ store.entries, entry.dMask.has identity = false)
    ⟨fun ⟨default, entries⟩ => ⟨default, entries⟩, fun ⟨default, entries⟩ => ⟨default, entries⟩⟩

def checkDefaults (list : XmlNode) : Except PacketError Unit :=
  match getPermissionsListDefaultPMask list with
  | .error .notFound => .ok ()
  | .error _ => .error badXml
  | .ok _ => .ok ()

def readIds (p : Platform) : List XmlNode → Except PacketError (List SettingId)
  | [] => .ok []
  | element :: elements =>
    match getInputPermission p element with
    | .error _ => .error badXml
    | .ok input =>
      if input.id.chars = [] then
        .error ⟨.dataSystemError, .deviceError, .refl true, .refl true⟩
      else do
        let ids ← readIds p elements
        .ok (input.id :: ids)

/-- The checks of a document whose elements are all denied: its versions, and the size of its result. -/
def checkDenied (p : Platform) (v1Mode : Bool) (xml : List Byte) (store : PermissionStore) :
    Except PacketError (PacketVersions × Nat) := do
  let packet ← readPacketNode p xml
  let versions ← store.readVersions packet
  let (list, _) ← readListNode v1Mode packet
  checkDefaults list
  let ids ← readIds p list.children
  let size ← checkResultXml p (ids.map fun id => (id, .accessDenied))
  .ok (versions, size)

section

variable {p : Platform} {identity : Identity} {store : PermissionStore}

theorem applyDefaults_denied (denied : store.defaultDMask.has identity = false) (list : XmlNode) :
    store.applyDefaults identity list = (checkDefaults list).map fun _ => store := by
  rw [applyDefaults, checkDefaults]
  split <;> simp_all [Except.map]

theorem applyElement_denied (undelegated : Undelegated identity store) {input : InputPermission}
    (filled : input.id.chars ≠ []) : store.applyElement identity input = .ok (.accessDenied, store) := by
  rw [applyElement, if_neg filled]
  split
  · rename_i entry found
    have mem := (findPermissionEntry_eq_some found).1
    simp [undelegated.entries entry mem]
  · simp [undelegated.default]

theorem applyElements_denied (undelegated : Undelegated identity store) (elements : List XmlNode) :
    applyElements p identity elements store =
      (readIds p elements).map fun ids => (store, ids.map fun id => (id, .accessDenied)) := by
  induction elements with
  | nil => rfl
  | cons element elements ih =>
    rw [applyElements, readIds]
    cases getInputPermission p element with
    | error status => rfl
    | ok input =>
      by_cases empty : input.id.chars = []
      · simp [applyElement, empty, undelegated.default, bind, Except.bind, Except.map]
      · simp only [applyElement_denied undelegated empty, empty, if_false, ih, bind, Except.bind]
        cases readIds p elements <;> rfl

/-- Nothing is marked, because the highest user of a delegation mask is in it. -/
theorem markForReplacement_denied (undelegated : Undelegated identity store) (append : Bool) :
    store.markForReplacement identity append = store := by
  cases append with
  | true => rfl
  | false =>
    have same : ∀ entry ∈ store.entries,
        (if entry.dMask.highestUserIs identity then { entry with markedForDeletion := true } else entry) = entry := by
      intro entry mem
      rw [if_neg]
      intro highest
      have delegated := Mask.has_of_highestUserIs highest
      rw [undelegated.entries entry mem] at delegated
      contradiction
    simp only [markForReplacement, markPermissionEntriesForDeletion, List.map_congr_left same, List.map_id']
    rfl

theorem Unmarked.deleteMarked (unmarked : store.Unmarked) : store.deleteMarkedPermissionEntries = store := by
  have same : store.entries.filter (fun entry => !entry.markedForDeletion) = store.entries := by
    rw [List.filter_eq_self]
    intro entry mem
    simp [unmarked entry mem]
  simp only [deleteMarkedPermissionEntries, same]

/-- Without authority a packet is a check of the document, and a change of the versions. -/
theorem applyPermissions_denied (unmarked : store.Unmarked) (undelegated : Undelegated identity store)
    (v1Mode : Bool) (xml : List Byte) : store.applyPermissions p v1Mode identity xml =
      (store.checkDenied p v1Mode xml).map fun checked => ⟨store.setVersions checked.1, checked.2⟩ := by
  rw [applyPermissions, checkDenied]
  simp only [bind, Except.bind]
  cases readPacketNode p xml with
  | error failure => rfl
  | ok packet =>
    simp only
    cases store.readVersions packet with
    | error failure => rfl
    | ok versions =>
      simp only
      cases readListNode v1Mode packet with
      | error failure => rfl
      | ok pair =>
        have stillUndelegated : Undelegated identity (store.setVersions versions) :=
          ⟨undelegated.default, undelegated.entries⟩
        have swept : (store.setVersions versions).deleteMarkedPermissionEntries = store.setVersions versions :=
          Unmarked.deleteMarked unmarked
        simp only [markForReplacement_denied undelegated, applyDefaults_denied stillUndelegated.default]
        cases checkDefaults pair.1 with
        | error failure => rfl
        | ok =>
          simp only [Except.map, applyElements_denied stillUndelegated]
          cases readIds p pair.1.children with
          | error failure => rfl
          | ok ids =>
            simp only [swept]
            cases checkResultXml p (ids.map fun id => (id, EfiStatus.accessDenied)) <;> rfl

end

end PermissionStore

namespace PermissionState

open PermissionStore

structure Unchanged (p : Platform) (before after : PermissionState) : Prop where
  memory : ∃ first second, before.store = some first ∧ after.store = some second ∧ second.Agrees first
  flash : ∀ kept, Persisted p after.flash kept ↔ Persisted p before.flash kept

def processPacket (p : Platform) (certs : CertStore) (auth : AuthState) (perms : PermissionState)
    (data : Packet) : PermissionState :=
  let applied := applyNewPermissionsPacket p certs auth perms data
  (permissionsLkgHandler p (if applied.status.isError then .restore else .commit) applied.permissions
    applied.data).2.1

section

variable {p : Platform} {flash : Option Variable} {store : PermissionStore}

theorem unchanged_reload_iff (own : OwnAttributes flash) (memory : Option PermissionStore) :
    Unchanged p ⟨some store, flash⟩ (PermissionState.reload p ⟨memory, flash⟩).2 ↔ Persisted p flash store := by
  constructor
  · rintro ⟨⟨first, second, same, loaded, agrees⟩, _⟩
    cases same
    simp only [PermissionState.reload, loadFromFlash] at loaded
    split at loaded
    · contradiction
    · rename_i read reads
      cases loaded
      exact ⟨read, reads, (saveToFlash_agrees p flash read).symm.trans agrees⟩
  · intro persisted
    obtain ⟨loaded, after, loads, agrees, _, stays, _⟩ := persisted.loads own
    simp only [PermissionState.reload, loads]
    refine ⟨⟨store, loaded, rfl, rfl, agrees⟩, fun kept => ?_⟩
    exact ⟨fun held => persisted.congr (stays.agrees held), fun held => stays.congr (persisted.agrees held)⟩

/-- A commit of new versions leaves everything as it was exactly when it is refused, or when the versions are the
old ones. -/
theorem unchanged_commit_iff (p : Platform) (own : OwnAttributes flash) (unmarked : store.Unmarked) (versions : PacketVersions)
    {data : Packet} (dirty : data.lkgDirty = true) : Unchanged p ⟨some store, flash⟩
        (PermissionState.step p ⟨some { store.setVersions versions with modified := true }, flash⟩
          (.lkg .commit data)) ↔
      Persisted p flash store ∧
        (maxSizeForVar < store.varSize ∨ (p.setVariable .permissionStore
            ((store.setVersions versions).encode store.createdOn p.getTime)).isError = true ∨
          versions.version = store.version ∧ versions.lsv = store.lsv) := by
  rw [step_lkg, dirty]
  simp only [if_true, true_and]
  generalize updated : ({ store.setVersions versions with modified := true } : PermissionStore) = new
  have newUnmarked : new.Unmarked := by
    rw [← updated]
    exact unmarked
  have newModified : new.modified = true := by rw [← updated]
  have size : new.varSize = store.varSize := by rw [← updated]; rfl
  have encoding : new.encode new.createdOn p.getTime =
      (store.setVersions versions).encode store.createdOn p.getTime := by
    rw [← updated]
    rfl
  have agreesIff : new.Agrees store ↔ versions.version = store.version ∧ versions.lsv = store.lsv := by
    rw [← updated]
    exact ⟨fun agrees => ⟨agrees.version, agrees.lsv⟩, fun same => ⟨same.1, same.2, rfl, rfl, rfl⟩⟩
  by_cases saved : (saveToFlash p flash new).1 = .success
  · have persisted := saveToFlash_persisted own newModified saved
    have kept := saveToFlash_agrees p flash new
    obtain ⟨fits, already⟩ := saveToFlash_accepted newModified saved
    rw [size] at fits
    rw [encoding] at already
    simp only [PermissionState.save, saved, if_true, ← agreesIff]
    constructor
    · rintro ⟨⟨first, second, same, now, agrees⟩, held⟩
      cases same
      cases now
      have newAgrees := kept.symm.trans agrees
      exact ⟨(held store).mp (persisted.congr newAgrees), .inr (.inr newAgrees)⟩
    · rintro ⟨before, cause⟩
      have newAgrees : new.Agrees store := by
        rcases cause with large | refused | same
        · omega
        · -- the write was not needed, so the variable held the new versions all along
          rw [already refused] at persisted
          exact persisted.agrees before
        · exact same
      refine ⟨⟨store, _, rfl, rfl, kept.trans newAgrees⟩, fun other => ?_⟩
      have after := persisted.congr newAgrees
      exact ⟨fun held => before.congr (after.agrees held), fun held => after.congr (before.agrees held)⟩
  · have refused := saveToFlash_refused newModified saved
    rw [size, encoding] at refused
    simp only [PermissionState.save, saved, if_false]
    rw [unchanged_reload_iff own]
    tauto

/-- A packet without authority changes nothing exactly when the store in memory is the one in flash, and the
document is refused, or cannot be written, or repeats the versions of the store. -/
theorem undelegated_unchanged_iff {certs : CertStore} {auth : AuthState} {data : Packet} {identity : Identity}
    (own : OwnAttributes flash) (unmarked : store.Unmarked) (undelegated : store.Undelegated identity)
    (signs : permissionsSigner p certs auth data = some identity) (fresh : data.lkgDirty = false) :
    Unchanged p ⟨some store, flash⟩ (processPacket p certs auth ⟨some store, flash⟩ data) ↔ Persisted p flash store ∧
        ∀ versions size, store.checkDenied p data.v1Mode data.payloadText = .ok (versions, size) →
          maxSizeForVar < store.varSize ∨ (p.setVariable .permissionStore
            ((store.setVersions versions).encode store.createdOn p.getTime)).isError = true ∨
          versions.version = store.version ∧ versions.lsv = store.lsv := by
  have signed := applyNewPermissionsPacket_signed signs
    (rfl : (⟨some store, flash⟩ : PermissionState).store = some store)
  rw [applyPermissions_denied unmarked undelegated] at signed
  rw [processPacket]
  cases checked : store.checkDenied p data.v1Mode data.payloadText with
  | error failure =>
    simp only [checked, Except.map] at signed
    simp only [signed.status, failure.isError, if_true, permissionsLkgHandler, signed.lkgDirty, fresh,
      Bool.not_false, signed.permissions, unchanged_reload_iff own]
    simp
  | ok pair =>
    obtain ⟨versions, size⟩ := pair
    simp only [checked, Except.map] at signed
    have commit := unchanged_commit_iff p own unmarked versions signed.lkgDirty
    simp only [signed.status, EfiStatus.isError_success, Bool.false_eq_true, if_false, signed.permissions]
    rw [PermissionState.step] at commit
    rw [commit]
    simp

end

/-! ## A packet signed by zero touch on a machine with an Owner -/

def pkcs7Certificate : List Byte :=
  [25, 0, 0, 0, 0, 2, 0xF1, 0x0E] ++ efiCertPkcs7Guid ++ [0]

def signedPermissions : Packet :=
  { Packet.allocated 0 0 with
    packet := some ([0, 0x3C] ++ pkcs7Certificate)
    signature := some 2
    signedDataLength := 2
    state := .dataPresent
    payload := some 1
    payloadSize := 1 }

def ztdSignedPlatform (packet : XmlNode) : Platform :=
  { packetPlatform [] packet with pkcs7Verify := fun _ cert _ => cert = [1] }

def ztdAndOwnerCerts : CertStore :=
  { CertStore.initial with
    populatedIdentities := Identity.signerZtd.bit ||| Identity.signerOwner.bit
    certs := fun i => if i = certZtdIndex then ⟨some [1], 1⟩ else if i = certOwnerIndex then ⟨some [2], 1⟩
      else ⟨none, 0⟩ }

def ownerBoot (p : Platform) : PermissionState :=
  boot p true (initAndSave p none).2.flash

def denied (version lsv : String) : XmlNode :=
  permissionsPacket version lsv "False" [permissionElement "Device.PlatformSetting1.Enable" "8" "8"]

/-- The packet raises `Version` and `Lsv` in flash, though its only element is denied. -/
theorem ztd_packet_raises_versions : ∃ store, (ownerBoot (ztdSignedPlatform (denied "9" "9"))).store = some store ∧
      Undelegated .signerZtd store ∧ Persisted (ztdSignedPlatform (denied "9" "9"))
        (ownerBoot (ztdSignedPlatform (denied "9" "9"))).flash store ∧
      permissionsSigner (ztdSignedPlatform (denied "9" "9")) ztdAndOwnerCerts (.loaded 0) signedPermissions =
        some .signerZtd ∧
      ¬ Unchanged (ztdSignedPlatform (denied "9" "9")) (ownerBoot (ztdSignedPlatform (denied "9" "9")))
        (processPacket (ztdSignedPlatform (denied "9" "9")) ztdAndOwnerCerts (.loaded 0)
          (ownerBoot (ztdSignedPlatform (denied "9" "9"))) signedPermissions) := by
  have before : ∀ store ∈ (ownerBoot (ztdSignedPlatform (denied "9" "9"))).store, store.lsv = 0 ∧
      Undelegated .signerZtd store ∧ Persisted (ztdSignedPlatform (denied "9" "9"))
        (ownerBoot (ztdSignedPlatform (denied "9" "9"))).flash store := by
    decide +kernel
  have after : ∀ store ∈ (processPacket (ztdSignedPlatform (denied "9" "9")) ztdAndOwnerCerts (.loaded 0)
      (ownerBoot (ztdSignedPlatform (denied "9" "9"))) signedPermissions).store, store.lsv = 9 := by
    decide +kernel
  obtain ⟨store, present⟩ : ∃ store, (ownerBoot (ztdSignedPlatform (denied "9" "9"))).store = some store :=
    Option.isSome_iff_exists.mp (by decide +kernel)
  obtain ⟨_, undelegated, persisted⟩ := before store present
  refine ⟨store, present, undelegated, persisted, by decide +kernel, ?_⟩
  rintro ⟨⟨first, second, isFirst, isSecond, agrees⟩, _⟩
  have raised := agrees.lsv
  rw [(before first isFirst).1, after second isSecond] at raised
  exact absurd raised (by decide)

/-- The packet with the versions of the store changes nothing. -/
theorem ztd_packet_repeats_versions :
    Unchanged (ztdSignedPlatform (denied "0" "0")) (ownerBoot (ztdSignedPlatform (denied "0" "0")))
      (processPacket (ztdSignedPlatform (denied "0" "0")) ztdAndOwnerCerts (.loaded 0)
        (ownerBoot (ztdSignedPlatform (denied "0" "0"))) signedPermissions) := by
  have booted : Sound (ownerBoot (ztdSignedPlatform (denied "0" "0"))) :=
    Sound.boot (Sound.initAndSave (fun _ same => by cases same)).own true
  have facts : ∀ store ∈ (ownerBoot (ztdSignedPlatform (denied "0" "0"))).store,
      Undelegated .signerZtd store ∧ Persisted (ztdSignedPlatform (denied "0" "0"))
        (ownerBoot (ztdSignedPlatform (denied "0" "0"))).flash store ∧
      ((store.checkDenied (ztdSignedPlatform (denied "0" "0")) false [0x3C]).toOption.all fun checked =>
        checked.1.version = store.version ∧ checked.1.lsv = store.lsv) = true := by
    decide +kernel
  obtain ⟨store, present⟩ : ∃ store, (ownerBoot (ztdSignedPlatform (denied "0" "0"))).store = some store :=
    Option.isSome_iff_exists.mp (by decide +kernel)
  have signs : permissionsSigner (ztdSignedPlatform (denied "0" "0")) ztdAndOwnerCerts (.loaded 0) signedPermissions =
      some .signerZtd := by
    decide +kernel
  obtain ⟨undelegated, persisted, repeats⟩ := facts store present
  have unmarked := booted.unmarked store present
  have own := booted.own
  generalize ownerBoot (ztdSignedPlatform (denied "0" "0")) = state at *
  obtain ⟨memory, flash⟩ := state
  cases present
  refine (undelegated_unchanged_iff own unmarked undelegated signs rfl).mpr ⟨persisted, ?_⟩
  intro versions size checked
  have payload : signedPermissions.payloadText = [0x3C] := by decide
  rw [payload] at checked
  rw [show signedPermissions.v1Mode = false from rfl] at checked
  rw [checked] at repeats
  exact .inr (.inr (of_decide_eq_true repeats))

end PermissionState

end Dfci
