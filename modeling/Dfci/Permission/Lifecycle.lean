import Dfci.Permission.Enroll
import Dfci.Permission.Packet
import Dfci.Support.Runs

/-! # The permission store between two resets -/

namespace Dfci

namespace PermissionState

/-- `InitPermStore` and `SaveToFlash`, as at boot without an Owner and in `ResetPermissionsToDefault`. -/
def initAndSave (p : Platform) (flash : Option Variable) : EfiStatus × PermissionState :=
  PermissionState.save p ⟨some (PermissionStore.initPermStore p), flash⟩

/-- The part of `CheckForAuthenticationProtocol` that loads or makes the store. -/
def boot (p : Platform) (ownerEnrolled : Bool) (flash : Option Variable) : PermissionState :=
  if ownerEnrolled then
    match reload p ⟨none, flash⟩ with
    | (.success, loaded) => loaded
    | (.error _, failed) => (initAndSave p failed.flash).2
  else
    (initAndSave p flash).2

def identityChange (p : Platform) (properties : Except EfiStatus Identity) (certIdentity : Identity)
    (changeType : IdentityChangeType) (perms : PermissionState) : EfiStatus × PermissionState :=
  match perms.store with
  -- an enroll does not get here without a store
  | none => (if changeType = .unenroll then .success else .invalidParameter, perms)
  | some store =>
    let (status, changed) := store.identityChange p properties certIdentity changeType
    (status, { perms with store := some changed })

end PermissionState

inductive PermissionEvent where
  | identityChange (properties : Except EfiStatus Identity) (certIdentity : Identity) (changeType : IdentityChangeType)
  | packet (certs : CertStore) (auth : AuthState) (data : Packet)
  | lkg (op : LkgOperation) (data : Packet)
  | reboot

namespace PermissionState

def step (p : Platform) (perms : PermissionState) : PermissionEvent → PermissionState
  | .identityChange properties certIdentity changeType =>
    (perms.identityChange p properties certIdentity changeType).2
  | .packet certs auth data => (applyNewPermissionsPacket p certs auth perms data).permissions
  | .lkg op data => (permissionsLkgHandler p op perms data).2.1
  | .reboot => boot p true perms.flash

/-! ## What a step can do -/

section

variable (p : Platform) (perms : PermissionState)

/-- A packet leaves the state alone, reloads it, or replaces the store in memory. -/
theorem step_packet (certs : CertStore) (auth : AuthState) (data : Packet) :
    step p perms (.packet certs auth data) = perms ∨
    (∃ identity store failure, permissionsSigner p certs auth data = some identity ∧ perms.store = some store ∧
      store.applyPermissions p data.v1Mode identity data.payloadText = .error failure ∧
      step p perms (.packet certs auth data) = (perms.reload p).2) ∨
    ∃ identity store applied, permissionsSigner p certs auth data = some identity ∧ perms.store = some store ∧
      store.applyPermissions p data.v1Mode identity data.payloadText = .ok applied ∧
      step p perms (.packet certs auth data) =
        { perms with store := some { applied.store with modified := true } } := by
  cases signs : permissionsSigner p certs auth data with
  | none =>
    obtain ⟨code, leaves⟩ := applyNewPermissionsPacket_rejected perms signs
    exact .inl leaves.permissions
  | some identity =>
    cases present : perms.store with
    | none => exact .inl (applyNewPermissionsPacket_noStore present)
    | some store =>
      have signed := applyNewPermissionsPacket_signed signs present
      cases applies : store.applyPermissions p data.v1Mode identity data.payloadText with
      | error failure =>
        rw [applies] at signed
        exact .inr (.inl ⟨identity, store, failure, rfl, rfl, applies, signed.permissions⟩)
      | ok applied =>
        rw [applies] at signed
        exact .inr (.inr ⟨identity, store, applied, rfl, rfl, applies, signed.permissions⟩)

/-- A commit or restore does nothing for a packet that changed nothing. A commit that fails restores. -/
theorem step_lkg (op : LkgOperation) (data : Packet) : step p perms (.lkg op data) =
      if data.lkgDirty then
        if op = .commit ∧ (perms.save p).1 = .success then (perms.save p).2
        else (perms.reload p).2
      else perms := by
  cases dirty : data.lkgDirty with
  | false => simp [step, permissionsLkgHandler, dirty]
  | true =>
    cases op with
    | restore => simp [step, permissionsLkgHandler, dirty]
    | commit =>
      cases saved : (perms.save p).1 with
      | success => simp [step, permissionsLkgHandler, dirty, saved]
      | error code =>
        have same := save_error p perms (by simp [saved])
        simp [step, permissionsLkgHandler, dirty, saved, same]

end

end PermissionState

/-! ## No step leaves a deletion mark -/

namespace PermissionStore

open FirstMatch

section

variable {p : Platform} {store : PermissionStore}

theorem Unmarked.addRequired (unmarked : store.Unmarked) (id : SettingId) (pMask dMask : Mask) :
    (store.addRequiredPermissionEntry id pMask dMask).2.Unmarked := by
  rw [addRequiredPermissionEntry]
  split
  · exact addPermissionEntry_unmarked unmarked id pMask dMask
  · intro entry mem
    rcases mem_modifyFirst mem with old | ⟨original, found, new⟩
    · exact unmarked entry old
    · rw [new]
      exact unmarked original (List.mem_of_find?_eq_some found)

theorem Unmarked.deletePermissionEntry (unmarked : store.Unmarked) (id : SettingId) :
    (store.deletePermissionEntry id).2.Unmarked := by
  rw [PermissionStore.deletePermissionEntry]
  split
  · split
    · exact fun entry mem => unmarked entry (List.mem_of_mem_eraseP mem)
    · exact unmarked
  · exact unmarked

theorem Unmarked.modifyUnsignedLoop (unmarked : store.Unmarked) (addEntries : Bool) (elements : List XmlNode) :
    (modifyUnsignedLoop p addEntries elements store).2.Unmarked := by
  apply modifyUnsignedLoop_invariant Unmarked _ unmarked
  intro _ _ input _ store held
  split
  · exact addPermissionEntry_unmarked held _ _ _
  · exact held.deletePermissionEntry _

theorem Unmarked.modifyUnsigned (unmarked : store.Unmarked) (addEntries : Bool) :
    (modifyUnsignedPermissionEntries p store addEntries).2.Unmarked := by
  rw [modifyUnsignedPermissionEntries]
  split
  · exact unmarked
  · split
    · exact unmarked
    · apply Unmarked.modifyUnsignedLoop
      split
      · exact unmarked
      · exact unmarked

theorem initPermStore_unmarked (p : Platform) : (initPermStore p).Unmarked := by
  rw [initPermStore_eq]
  apply Unmarked.modifyUnsigned
  change ∀ entry ∈ requiredEntries, entry.markedForDeletion = false
  decide

/-- A new store is to be saved, and accepts every version. -/
theorem initPermStore_new (p : Platform) : (initPermStore p).modified = true ∧ (initPermStore p).lsv = 0 := by
  rw [initPermStore_eq, addUnsignedPermissionEntries, modifyUnsignedPermissionEntries]
  split
  · exact ⟨rfl, rfl⟩
  · split
    · exact ⟨rfl, rfl⟩
    · simp only [modifyUnsignedLoop_add]
      split <;> exact ⟨rfl, rfl⟩

theorem initPermStore_modified (p : Platform) : (initPermStore p).modified = true :=
  (initPermStore_new p).1

theorem Unmarked.identityChange (unmarked : store.Unmarked) (properties : Except EfiStatus Identity)
    (certIdentity : Identity) (changeType : IdentityChangeType) :
    (identityChange p properties certIdentity changeType store).2.Unmarked :=
  identityChange_invariant Unmarked (fun _ id held => held.deletePermissionEntry id) (fun _ held => held)
    (fun _ id pMask dMask held => held.addRequired id pMask dMask) properties certIdentity changeType unmarked

theorem identityChange_modified (properties : Except EfiStatus Identity) (certIdentity : Identity)
    (changeType : IdentityChangeType) :
    (identityChange p properties certIdentity changeType store).2.modified = store.modified := by
  refine identityChange_invariant (fun changed => changed.modified = store.modified) ?_ ?_ ?_ properties certIdentity
    changeType rfl
  · intro changed id held
    rw [PermissionStore.deletePermissionEntry]
    repeat' split
    all_goals exact held
  · exact fun _ held => held
  · intro changed id pMask dMask held
    rw [addRequiredPermissionEntry]
    split
    · rw [addPermissionEntry]
      repeat' split
      all_goals exact held
    · exact held

theorem applyPermissions_unmarked {v1Mode : Bool} {identity : Identity} {xml : List Byte}
    {applied : AppliedPermissions} (applies : store.applyPermissions p v1Mode identity xml = .ok applied) :
    applied.store.Unmarked := by
  obtain ⟨_, _, _, _, _, final, _, _, _, _, _, _, _, result⟩ := applyPermissions_eq_ok applies
  rw [result]
  intro entry mem
  simpa using (List.mem_filter.mp mem).2

end

end PermissionStore

namespace PermissionState

open PermissionStore

structure Sound (perms : PermissionState) : Prop where
  own : OwnAttributes perms.flash
  unmarked : ∀ store ∈ perms.store, store.Unmarked

section

variable {p : Platform} {perms : PermissionState}

theorem loadFromFlash_ownAttributes {flash : Option Variable} (own : OwnAttributes flash) :
    OwnAttributes (loadFromFlash p flash).2.2 := by
  rw [loadFromFlash]
  split
  · exact own
  · exact saveToFlash_ownAttributes p own _

theorem Sound.reload {memory : Option PermissionStore} {flash : Option Variable} (own : OwnAttributes flash) :
    Sound (PermissionState.reload p ⟨memory, flash⟩).2 where
  own := loadFromFlash_ownAttributes own
  unmarked := fun _ loads => loadFromFlash_unmarked loads

theorem Sound.save (sound : Sound perms) : Sound (perms.save p).2 := by
  rw [PermissionState.save]
  cases present : perms.store with
  | none => exact sound
  | some store =>
    refine ⟨saveToFlash_ownAttributes p sound.own store, ?_⟩
    intro saved isSaved entry mem
    have entries : saved.entries = store.entries := by
      rw [← Option.mem_some_iff.mp isSaved]
      exact saveToFlash_entries p perms.flash store
    rw [entries] at mem
    exact sound.unmarked store present entry mem

theorem Sound.initAndSave {flash : Option Variable} (own : OwnAttributes flash) :
    Sound (PermissionState.initAndSave p flash).2 := by
  apply Sound.save
  refine ⟨own, ?_⟩
  rintro _ ⟨⟩
  exact initPermStore_unmarked p

/-- After a reset that succeeds, memory and flash hold the initial store. -/
theorem initAndSave_success {flash : Option Variable} {start : PermissionState} (own : OwnAttributes flash)
    (reset : PermissionState.initAndSave p flash = (.success, start)) :
    ∃ store, start.store = some store ∧ store.Agrees (initPermStore p) ∧
      Persisted p start.flash (initPermStore p) := by
  simp only [PermissionState.initAndSave, PermissionState.save, Prod.mk.injEq] at reset
  obtain ⟨succeeds, rfl⟩ := reset
  exact ⟨_, rfl, saveToFlash_agrees p flash _, saveToFlash_persisted own (initPermStore_modified p) succeeds⟩

theorem Sound.boot {flash : Option Variable} (own : OwnAttributes flash) (ownerEnrolled : Bool) :
    Sound (PermissionState.boot p ownerEnrolled flash) := by
  cases ownerEnrolled with
  | false => exact Sound.initAndSave own
  | true =>
    have reloaded : Sound (PermissionState.reload p ⟨none, flash⟩).2 := Sound.reload own
    rw [PermissionState.boot, if_pos rfl]
    split
    · rename_i loaded loads
      rw [loads] at reloaded
      exact reloaded
    · rename_i code failed loads
      rw [loads] at reloaded
      exact Sound.initAndSave reloaded.own

theorem Sound.step (sound : Sound perms) (event : PermissionEvent) : Sound (PermissionState.step p perms event) := by
  cases event with
  | identityChange properties certIdentity changeType =>
    obtain ⟨memory, flash⟩ := perms
    cases memory with
    | none => exact sound
    | some store =>
      refine ⟨sound.own, ?_⟩
      rintro _ ⟨⟩
      exact (sound.unmarked store rfl).identityChange properties certIdentity changeType
  | packet certs auth data =>
    rcases step_packet p perms certs auth data with
      same | ⟨_, _, _, _, _, _, reloaded⟩ | ⟨_, _, applied, _, _, applies, replaced⟩
    · rw [same]
      exact sound
    · rw [reloaded]
      exact Sound.reload sound.own
    · rw [replaced]
      refine ⟨sound.own, ?_⟩
      rintro _ ⟨⟩
      exact applyPermissions_unmarked applies
  | lkg op data =>
    rw [step_lkg]
    split
    · split
      · exact sound.save
      · exact Sound.reload sound.own
    · exact sound
  | reboot => exact Sound.boot sound.own true

/-! ## Memory and flash -/

/-- The stores in memory and in flash grant what `store` grants. -/
structure Holds (p : Platform) (perms : PermissionState) (store : PermissionStore) : Prop where
  memory : ∃ current, perms.store = some current ∧ current.Agrees store
  flash : Persisted p perms.flash store
  sound : perms.Sound

theorem Holds.reload {store : PermissionStore} (own : OwnAttributes perms.flash)
    (persisted : Persisted p perms.flash store) : Holds p (perms.reload p).2 store := by
  obtain ⟨loaded, flash, loads, agrees, unmarked, persists, owns⟩ := persisted.loads own
  simp only [PermissionState.reload, loads]
  refine ⟨⟨loaded, rfl, agrees⟩, persists, owns, ?_⟩
  rintro _ ⟨⟩
  exact unmarked

/-- A commit that succeeds leaves the modified store in flash. -/
theorem Holds.commit (sound : perms.Sound) {store : PermissionStore} (isStore : perms.store = some store)
    (modified : store.modified = true) (saves : (perms.save p).1 = .success) : Holds p (perms.save p).2 store := by
  have saved : Sound (perms.save p).2 := sound.save
  simp only [PermissionState.save, isStore] at saves saved ⊢
  exact ⟨⟨_, rfl, saveToFlash_agrees p _ _⟩, saveToFlash_persisted sound.own modified saves, saved⟩

/-- Saving changes nothing unless it succeeds for a modified store. -/
theorem save_kept {store : PermissionStore} (isStore : perms.store = some store)
    (not : ¬ ((perms.save p).1 = .success ∧ store.modified = true)) : (perms.save p).2 = perms := by
  by_cases saves : (perms.save p).1 = .success
  · have unmodified : store.modified = false := by simpa [saves] using not
    obtain ⟨memory, flash⟩ := perms
    cases isStore
    simp [PermissionState.save, saveToFlash, unmodified]
  · exact save_error p perms saves

theorem Holds.save {store : PermissionStore} (holds : Holds p perms store) : Holds p (perms.save p).2 store := by
  obtain ⟨current, isStore, agrees⟩ := holds.memory
  have saved : Sound (perms.save p).2 := holds.sound.save
  by_cases writes : (perms.save p).1 = .success ∧ current.modified = true
  · have committed := Holds.commit holds.sound isStore writes.2 writes.1
    obtain ⟨after, isAfter, agreesAfter⟩ := committed.memory
    exact ⟨⟨after, isAfter, agreesAfter.trans agrees⟩, committed.flash.congr agrees, saved⟩
  · rw [save_kept isStore writes]
    exact holds

/-- Once memory and flash agree, a commit or restore changes neither. -/
theorem Holds.lkg {store : PermissionStore} (holds : Holds p perms store) (op : LkgOperation)
    (data : Packet) : Holds p (PermissionState.step p perms (.lkg op data)) store := by
  rw [step_lkg]
  split
  · split
    · exact holds.save
    · exact Holds.reload holds.sound.own holds.flash
  · exact holds

end

end PermissionState

end Dfci
