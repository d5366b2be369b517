import Dfci.Permission.NoAuthority

/-! # Anti-rollback of the permission store

A packet is compared with the `Lsv` in memory, while the `Lsv` that survives is the one in the variable. The
invariant that ties the two together is that the variable is readable and its `Lsv` is at most the one in memory:
applying raises the one in memory, a commit copies it to the variable, and a restore or a boot copies it back. -/

namespace Dfci

namespace PermissionStore

open ByteFields PermissionXml

/-- The `Version` and `Lsv` fields of the variable's header; zero while there is none. -/
def persistedVersion (flash : Option Variable) : Nat :=
  flash.elim 0 fun var => fieldAt var.data 5 4

def persistedLsv (flash : Option Variable) : Nat :=
  flash.elim 0 fun var => fieldAt var.data 9 4

/-- The number in the `Version` element of a packet's document. -/
def packetVersion (p : Platform) (data : Packet) : Option Nat := do
  let packet ← (readPacketNode p data.payloadText).toOption
  let versionNode ← packet.findFirstChildNodeByName versionElementName
  some versionNode.value.decimalToUintn

/-! ## Steps that keep the versions -/

structure SameVersions (before after : PermissionStore) : Prop where
  version : after.version = before.version
  lsv : after.lsv = before.lsv

theorem SameVersions.refl (store : PermissionStore) : SameVersions store store := ⟨rfl, rfl⟩

theorem SameVersions.trans {first second third : PermissionStore} (left : SameVersions first second)
    (right : SameVersions second third) : SameVersions first third :=
  ⟨right.version.trans left.version, right.lsv.trans left.lsv⟩

section

variable {p : Platform}

theorem addPermissionEntry_sameVersions (store : PermissionStore) (id : SettingId) (pMask dMask : Mask) :
    SameVersions store (store.addPermissionEntry id pMask dMask).2 := by
  rcases addPermissionEntry_cases store id pMask dMask with ⟨_, added⟩ | kept
  · rw [added]
    exact ⟨rfl, rfl⟩
  · rw [kept]
    exact .refl store

/-- Whatever version the variable has, its `Version` and `Lsv` are those of the loaded store. -/
theorem parse_versions {data : List Byte} {store : PermissionStore} (parses : parse p data = .ok store) :
    store.version = fieldAt data 5 4 ∧ store.lsv = fieldAt data 9 4 := by
  refine parse_invariant (fun store => store.version = fieldAt data 5 4 ∧ store.lsv = fieldAt data 9 4) ?_
    (fun _ _ _ _ versions => versions) ?_ parses
  · intro store id pMask dMask versions
    have same := addPermissionEntry_sameVersions store id pMask dMask
    exact ⟨same.version.trans versions.1, same.lsv.trans versions.2⟩
  · intro header isHeader
    exact (loadHeader_eq_ok isHeader).2

theorem readFlash_versions {flash : Option Variable} {read : PermissionStore} (reads : readFlash p flash = .ok read) :
    read.version = persistedVersion flash ∧ read.lsv = persistedLsv flash := by
  cases flash with
  | none => cases reads
  | some var =>
    simp only [readFlash] at reads
    split at reads
    · cases reads
    · split at reads
      · cases reads
      · exact parse_versions reads

theorem addRequired_sameVersions (store : PermissionStore) (id : SettingId) (pMask dMask : Mask) :
    SameVersions store (store.addRequiredPermissionEntry id pMask dMask).2 := by
  rw [addRequiredPermissionEntry]
  split
  · exact addPermissionEntry_sameVersions store id pMask dMask
  · exact ⟨rfl, rfl⟩

theorem identityChange_sameVersions (properties : Except EfiStatus Identity) (certIdentity : Identity)
    (changeType : IdentityChangeType) (store : PermissionStore) :
    SameVersions store (identityChange p properties certIdentity changeType store).2 := by
  refine identityChange_invariant (SameVersions store) ?_ (fun _ same => same.trans ⟨rfl, rfl⟩)
    (fun changed id pMask dMask same => same.trans (addRequired_sameVersions changed id pMask dMask)) properties
    certIdentity changeType (.refl store)
  intro changed id same
  apply same.trans
  rw [deletePermissionEntry]
  split
  · split <;> exact ⟨rfl, rfl⟩
  · exact .refl changed

/-! ## What a packet does to the versions -/

theorem applyDefaults_sameVersions {store defaulted : PermissionStore} {identity : Identity} {list : XmlNode}
    (applies : store.applyDefaults identity list = .ok defaulted) : SameVersions store defaulted := by
  obtain rfl | ⟨_, _, _, _, rfl⟩ := applyDefaults_cases applies
  all_goals exact ⟨rfl, rfl⟩

theorem applyElement_sameVersions {store after : PermissionStore} {identity : Identity} {input : InputPermission}
    {status : EfiStatus} (applies : store.applyElement identity input = .ok (status, after)) :
    SameVersions store after := by
  obtain ⟨_, _, _, _, rfl⟩ | ⟨_, _, _, _, rfl⟩ | ⟨_, _, _, _, rfl⟩ | ⟨_, _, rfl⟩ := applyElement_cases applies
  all_goals exact ⟨rfl, rfl⟩

theorem applyElements_sameVersions {identity : Identity} {elements : List XmlNode} {store after : PermissionStore}
    {results : List (SettingId × EfiStatus)}
    (applies : applyElements p identity elements store = .ok (after, results)) : SameVersions store after :=
  applyElements_invariant (SameVersions store)
    (fun _ _ _ _ _ _ _ step same => same.trans (applyElement_sameVersions step)) (.refl _) applies

/-- A packet that passes the version checks sets the `Version`, and raises the `Lsv` to its own. -/
theorem readVersions_eq_ok {store : PermissionStore} {packet : XmlNode} {versions : PacketVersions}
    (reads : store.readVersions packet = .ok versions) :
    ∃ versionNode lsvNode, packet.findFirstChildNodeByName versionElementName = some versionNode ∧
      packet.findFirstChildNodeByName lsvElementName = some lsvNode ∧
      versions.version = versionNode.value.decimalToUintn ∧
      versions.lsv = max store.lsv lsvNode.value.decimalToUintn := by
  simp only [readVersions] at reads
  split at reads
  · cases reads
  · next versionNode found =>
    split at reads
    · cases reads
    · split at reads
      · cases reads
      · split at reads
        · cases reads
        · next lsvNode foundLsv =>
          split at reads
          · cases reads
          · split at reads
            · cases reads
            · cases reads
              exact ⟨versionNode, lsvNode, found, foundLsv, rfl, rfl⟩

/-- A packet that is applied sets the `Version`, and raises the `Lsv` to its own. -/
theorem applyPermissions_versions {store : PermissionStore} {v1Mode : Bool} {identity : Identity} {xml : List Byte}
    {applied : AppliedPermissions} (applies : store.applyPermissions p v1Mode identity xml = .ok applied) :
    ∃ packet versionNode lsvNode, readPacketNode p xml = .ok packet ∧
      packet.findFirstChildNodeByName versionElementName = some versionNode ∧
      packet.findFirstChildNodeByName lsvElementName = some lsvNode ∧
      applied.store.version = versionNode.value.decimalToUintn ∧
      applied.store.lsv = max store.lsv lsvNode.value.decimalToUintn := by
  obtain ⟨packet, versions, list, append, defaulted, final, results, readsPacket, readsVersions, _, defaults, elements,
    _, result⟩ := applyPermissions_eq_ok applies
  obtain ⟨versionNode, lsvNode, found, foundLsv, isVersion, isLsv⟩ := readVersions_eq_ok readsVersions
  have kept := (applyDefaults_sameVersions defaults).trans (applyElements_sameVersions elements)
  rw [result]
  exact ⟨packet, versionNode, lsvNode, readsPacket, found, foundLsv, kept.version.trans isVersion, kept.lsv.trans isLsv⟩

end

end PermissionStore

namespace PermissionState

open PermissionStore

/-- The variable is readable, its `Lsv` is at least `bound`, and the `Lsv` in memory is at least that. -/
structure Anchored (p : Platform) (bound : Nat) (perms : PermissionState) : Prop where
  sound : Sound perms
  lsv : ∃ store read, perms.store = some store ∧ readFlash p perms.flash = .ok read ∧
    bound ≤ read.lsv ∧ read.lsv ≤ store.lsv

section

variable {p : Platform} {bound : Nat} {perms : PermissionState}

section

variable (anchored : Anchored p bound perms)
include anchored

theorem Anchored.reload : Anchored p bound (perms.reload p).2 := by
  obtain ⟨store, read, _, reads, above, _⟩ := anchored.lsv
  have persisted : Persisted p perms.flash read := ⟨read, reads, .refl read⟩
  obtain ⟨loaded, flash, loads, agrees, unmarked, ⟨again, readsAgain, agreesAgain⟩, own⟩ :=
    persisted.loads anchored.sound.own
  simp only [PermissionState.reload, loads]
  refine ⟨⟨own, fun _ same => Option.some_inj.mp same ▸ unmarked⟩, loaded, again, rfl, readsAgain, ?_, ?_⟩
  · rw [agreesAgain.lsv]
    exact above
  · rw [agreesAgain.lsv, agrees.lsv]

theorem Anchored.save (succeeds : (perms.save p).1 = .success) : Anchored p bound (perms.save p).2 := by
  refine ⟨anchored.sound.save, ?_⟩
  obtain ⟨store, read, present, reads, above, below⟩ := anchored.lsv
  have unmarked := anchored.sound.unmarked store present
  have kept := saveToFlash_agrees p perms.flash store
  simp only [PermissionState.save, present] at succeeds ⊢
  cases modified : store.modified with
  | true =>
    obtain ⟨again, readsAgain, agreesAgain⟩ := saveToFlash_persisted anchored.sound.own modified succeeds
    refine ⟨_, again, rfl, readsAgain, ?_, ?_⟩
    · rw [agreesAgain.lsv]
      omega
    · rw [agreesAgain.lsv, kept.lsv]
  | false =>
    have untouched : saveToFlash p perms.flash store = (.success, store, perms.flash) := by
      simp [saveToFlash, modified]
    rw [untouched]
    exact ⟨store, read, rfl, reads, above, below⟩

theorem Anchored.boot : Anchored p bound (PermissionState.boot p true perms.flash) := by
  have reloaded := anchored.reload
  obtain ⟨_, read, _, reads, _, _⟩ := anchored.lsv
  simp only [PermissionState.reload, loadFromFlash, reads] at reloaded
  simpa only [PermissionState.boot, if_true, PermissionState.reload, loadFromFlash, reads] using reloaded

/-- No step while an Owner is enrolled lets the `Lsv` of the variable fall below a bound it has reached. -/
theorem Anchored.step (event : PermissionEvent) : Anchored p bound (PermissionState.step p perms event) := by
  obtain ⟨store, read, present, reads, above, below⟩ := anchored.lsv
  cases event with
  | identityChange properties certIdentity changeType =>
    refine ⟨anchored.sound.step _, ?_⟩
    simp only [PermissionState.step, PermissionState.identityChange, present]
    refine ⟨_, read, rfl, reads, above, ?_⟩
    rw [(identityChange_sameVersions properties certIdentity changeType store).lsv]
    exact below
  | packet certs auth data =>
    have sound : Sound (PermissionState.step p perms (.packet certs auth data)) := anchored.sound.step _
    rcases step_packet p perms certs auth data with
      same | ⟨_, _, _, _, _, _, reloaded⟩ | ⟨_, other, applied, _, isStore, applies, replaced⟩
    · rw [same]
      exact anchored
    · rw [reloaded]
      exact anchored.reload
    · rw [replaced] at sound ⊢
      rw [present, Option.some_inj] at isStore
      subst isStore
      obtain ⟨_, _, _, _, _, _, _, raised⟩ := applyPermissions_versions applies
      exact ⟨sound, _, read, rfl, reads, above, Nat.le_trans below (raised ▸ le_max_left _ _)⟩
  | lkg op data =>
    rw [step_lkg]
    split
    · split
      · rename_i saved
        exact anchored.save saved.2
      · exact anchored.reload
    · exact anchored
  | reboot => exact anchored.boot

end

theorem Anchored.reset {flash : Option Variable} {start : PermissionState} (own : OwnAttributes flash)
    (reset : PermissionState.initAndSave p flash = (.success, start)) : Anchored p 0 start := by
  have sound : Sound (PermissionState.initAndSave p flash).2 := Sound.initAndSave own
  rw [reset] at sound
  obtain ⟨store, present, agrees, read, reads, readAgrees⟩ := initAndSave_success own reset
  exact ⟨sound, store, read, present, reads, Nat.zero_le _, by rw [readAgrees.lsv, agrees.lsv]⟩

/-- A packet that is older than the variable's `Lsv` is not applied. -/
theorem Anchored.stale (anchored : Anchored p bound perms) (certs : CertStore) (auth : AuthState)
    {data : Packet} {version : Nat} (isVersion : packetVersion p data = some version)
    (older : version < persistedLsv perms.flash) : PermissionState.step p perms (.packet certs auth data) = perms ∨
    PermissionState.step p perms (.packet certs auth data) = (perms.reload p).2 := by
  rcases step_packet p perms certs auth data with
    same | ⟨_, _, _, _, _, _, reloaded⟩ | ⟨_, store, applied, _, present, applies, _⟩
  · exact .inl same
  · exact .inr reloaded
  · -- an applied packet has a Version of at least the Lsv in memory
    exfalso
    obtain ⟨other, read, isOther, reads, _, below⟩ := anchored.lsv
    rw [present, Option.some_inj] at isOther
    subst isOther
    obtain ⟨packet, versionNode, _, readsPacket, found, _, applied_version, raised⟩ := applyPermissions_versions applies
    have same : version = versionNode.value.decimalToUintn := by
      simpa [packetVersion, readsPacket, found, Except.toOption] using isVersion.symm
    have bounded := applied.store.lsv_le
    rw [(readFlash_versions reads).2] at below
    omega

/-- A reload leaves in the variable what it held. -/
theorem Anchored.persisted_reload (anchored : Anchored p bound perms) (kept : PermissionStore) :
    Persisted p (perms.reload p).2.flash kept ↔ Persisted p perms.flash kept := by
  obtain ⟨_, read, _, reads, _, _⟩ := anchored.lsv
  have persisted : Persisted p perms.flash read := ⟨read, reads, .refl read⟩
  obtain ⟨loaded, flash, loads, _, _, stays, _⟩ := persisted.loads anchored.sound.own
  simp only [PermissionState.reload, loads]
  exact ⟨fun held => persisted.congr (stays.agrees held), fun held => stays.congr (persisted.agrees held)⟩

end

/-- From a reset on, the `Lsv` of the variable never falls and is never above its `Version`. A packet that is older
than it leaves the variable as it was, and the run goes on as if the packet had been left out, or had been a
restore. -/
theorem permission_antiRollback {p : Platform} {flash : Option Variable} {start : PermissionState}
    (own : OwnAttributes flash) (reset : PermissionState.initAndSave p flash = (.success, start))
    (first second : List PermissionEvent) : persistedLsv (Runs.run (step p) start first).flash ≤
      persistedLsv (Runs.run (step p) start (first ++ second)).flash ∧
    persistedLsv (Runs.run (step p) start first).flash ≤ persistedVersion (Runs.run (step p) start first).flash ∧
    ∀ certs auth data version, packetVersion p data = some version →
      version < persistedLsv (Runs.run (step p) start first).flash →
      (∀ kept, Persisted p (Runs.run (step p) start (first ++ [.packet certs auth data])).flash kept ↔
        Persisted p (Runs.run (step p) start first).flash kept) ∧
      ∃ instead, (instead = [] ∨ instead = [.lkg .restore { data with lkgDirty := true }]) ∧
        Runs.run (step p) start (first ++ .packet certs auth data :: second) =
          Runs.run (step p) start (first ++ (instead ++ second)) := by
  have earlier : Anchored p 0 (Runs.run (step p) start first) :=
    Runs.invariant (step p) (fun _ event anchored => anchored.step event) (.reset own reset) first
  simp only [Runs.run_append]
  generalize Runs.run (step p) start first = state at earlier
  obtain ⟨store, read, present, reads, _, below⟩ := earlier.lsv
  obtain ⟨isVersion, isLsv⟩ := readFlash_versions reads
  refine ⟨?_, ?_, ?_⟩
  · -- the state is anchored at its own Lsv, and every later state with it
    have anchored : Anchored p (persistedLsv state.flash) state :=
      ⟨earlier.sound, store, read, present, reads, Nat.le_of_eq isLsv.symm, below⟩
    have later : Anchored p (persistedLsv state.flash) (Runs.run (step p) state second) :=
      Runs.invariant (step p) (fun _ event anchored => anchored.step event) anchored second
    obtain ⟨_, laterRead, _, readsLater, above, _⟩ := later.lsv
    rw [(readFlash_versions readsLater).2] at above
    exact above
  · rw [← isLsv, ← isVersion]
    exact read.lsv_le
  · intro certs auth data version hasVersion older
    have restores : step p state (.lkg .restore { data with lkgDirty := true }) = (state.reload p).2 := by
      simp [step_lkg]
    rcases earlier.stale certs auth hasVersion older with same | reloaded
    · refine ⟨fun kept => ?_, [], .inl rfl, ?_⟩
      · simp only [Runs.run_cons, Runs.run_nil, same]
      · simp only [Runs.run_cons, Runs.run_nil, same]
    · refine ⟨fun kept => ?_, _, .inr rfl, ?_⟩
      · simp only [Runs.run_cons, Runs.run_nil, reloaded]
        exact earlier.persisted_reload kept
      · simp only [Runs.run_cons, Runs.run_nil, reloaded, restores]

/-- A packet, its commit and a boot raise the `Lsv` of the variable from the reset's 0 to 9. -/
def raiseCommitBoot : List PermissionEvent :=
  [.packet ztdAndOwnerCerts (.loaded 0) signedPermissions, .lkg .commit { signedPermissions with lkgDirty := true },
    .reboot]

theorem antiRollback_raiseCommitBoot :
    ∃ start, PermissionState.initAndSave (ztdSignedPlatform (denied "9" "9")) none = (.success, start) ∧
      persistedLsv start.flash ≤
        persistedLsv (Runs.run (step (ztdSignedPlatform (denied "9" "9"))) start raiseCommitBoot).flash ∧
      persistedLsv (Runs.run (step (ztdSignedPlatform (denied "9" "9"))) start raiseCommitBoot).flash = 9 := by
  have reset : PermissionState.initAndSave (ztdSignedPlatform (denied "9" "9")) none =
      (.success, (PermissionState.initAndSave (ztdSignedPlatform (denied "9" "9")) none).2) :=
    Prod.ext (by decide +kernel) rfl
  have raised : persistedLsv (Runs.run (step (ztdSignedPlatform (denied "9" "9")))
      (PermissionState.initAndSave (ztdSignedPlatform (denied "9" "9")) none).2 raiseCommitBoot).flash = 9 := by
    decide +kernel
  exact ⟨_, reset, (permission_antiRollback (fun _ same => by cases same) reset [] raiseCommitBoot).1, raised⟩

end PermissionState

end Dfci
