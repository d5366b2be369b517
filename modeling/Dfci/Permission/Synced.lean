import Dfci.Permission.Lifecycle

/-! # The permission store in memory and in its variable

The two are the same after a boot, a reset, a commit and a restore. In between, a packet and `IdentityChange` write to
the memory only, and what is in the variable is what a restore gives back. -/

namespace Dfci

namespace PermissionState

open PermissionStore

def Synced (p : Platform) (perms : PermissionState) : Prop :=
  ∃ store, Holds p perms store

structure Backed (p : Platform) (perms : PermissionState) : Prop where
  present : ∃ store, perms.store = some store
  flash : ∃ store, Persisted p perms.flash store
  sound : perms.Sound

def Modified (perms : PermissionState) : Prop :=
  ∃ store, perms.store = some store ∧ store.modified = true

section

variable {p : Platform} {perms : PermissionState}

theorem Synced.backed (synced : Synced p perms) : Backed p perms := by
  obtain ⟨store, holds⟩ := synced
  obtain ⟨current, isCurrent, _⟩ := holds.memory
  exact ⟨⟨current, isCurrent⟩, ⟨store, holds.flash⟩, holds.sound⟩

/-- What a reboot would load is what is in memory. -/
theorem Synced.loads (synced : Synced p perms) : ∃ store loaded flash, perms.store = some store ∧
      loadFromFlash p perms.flash = (.success, some loaded, flash) ∧ loaded.Agrees store := by
  obtain ⟨store, holds⟩ := synced
  obtain ⟨current, isCurrent, agrees⟩ := holds.memory
  obtain ⟨loaded, flash, loads, same, _⟩ := holds.flash.loads holds.sound.own
  exact ⟨current, loaded, flash, isCurrent, loads, same.trans agrees.symm⟩

theorem Backed.reload (backed : Backed p perms) : Synced p (perms.reload p).2 := by
  obtain ⟨store, persisted⟩ := backed.flash
  exact ⟨store, Holds.reload backed.sound.own persisted⟩

theorem Synced.lkg (synced : Synced p perms) (op : LkgOperation) (data : Packet) :
    Synced p (permissionsLkgHandler p op perms data).2.1 := by
  obtain ⟨store, holds⟩ := synced
  exact ⟨store, holds.lkg op data⟩

/-- The commit of a changed store saves it or goes back, and a restore goes back. -/
theorem Backed.lkg (backed : Backed p perms) {op : LkgOperation} {data : Packet}
    (dirty : data.lkgDirty = true) (modified : op = .commit → Modified perms) :
    Synced p (permissionsLkgHandler p op perms data).2.1 := by
  change Synced p (step p perms (.lkg op data))
  rw [step_lkg, if_pos dirty]
  split
  · rename_i saves
    obtain ⟨store, isStore, isModified⟩ := modified saves.1
    exact ⟨store, Holds.commit backed.sound isStore isModified saves.2⟩
  · exact backed.reload

/-! ## Enrolments -/

theorem Backed.identityChange (backed : Backed p perms) (properties : Except EfiStatus Identity)
    (certIdentity : Identity) (changeType : IdentityChangeType) :
    Backed p (perms.identityChange p properties certIdentity changeType).2 := by
  obtain ⟨store, isStore⟩ := backed.present
  have sound : Sound (perms.step p (.identityChange properties certIdentity changeType)) :=
    backed.sound.step _
  simp only [PermissionState.step, PermissionState.identityChange, isStore] at sound ⊢
  exact ⟨⟨_, rfl⟩, backed.flash, sound⟩

theorem Modified.identityChange (modified : Modified perms) (properties : Except EfiStatus Identity)
    (certIdentity : Identity) (changeType : IdentityChangeType) :
    Modified (perms.identityChange p properties certIdentity changeType).2 := by
  obtain ⟨store, isStore, isModified⟩ := modified
  simp only [PermissionState.identityChange, isStore]
  exact ⟨_, rfl, (identityChange_modified properties certIdentity changeType).trans isModified⟩

/-- An enrolment that changes no entry leaves the memory and the variable in agreement. -/
theorem Synced.identityChange (synced : Synced p perms) {properties : Except EfiStatus Identity}
    {certIdentity : Identity} {changeType : IdentityChangeType} (keeps : ∀ store, perms.store = some store →
      (store.identityChange p properties certIdentity changeType).2.Agrees store) :
    Synced p (perms.identityChange p properties certIdentity changeType).2 := by
  obtain ⟨store, holds⟩ := synced
  obtain ⟨current, isCurrent, agrees⟩ := holds.memory
  have sound : Sound (perms.step p (.identityChange properties certIdentity changeType)) :=
    holds.sound.step _
  have kept := keeps current isCurrent
  simp only [PermissionState.step, PermissionState.identityChange, isCurrent] at sound ⊢
  exact ⟨store, ⟨_, rfl, kept.trans agrees⟩, holds.flash, sound⟩

/-! ## Starting over -/

theorem holds_initAndSave {flash : Option Variable} (own : OwnAttributes flash)
    (saves : (initAndSave p flash).1 = .success) : Holds p (initAndSave p flash).2 (initPermStore p) := by
  have sound : Sound (initAndSave p flash).2 := Sound.initAndSave own
  obtain ⟨store, isStore, agrees, persisted⟩ := initAndSave_success own (Prod.ext saves rfl)
  exact ⟨⟨store, isStore, agrees⟩, persisted, sound⟩

theorem synced_initAndSave {flash : Option Variable} (own : OwnAttributes flash)
    (saves : (initAndSave p flash).1 = .success) : Synced p (initAndSave p flash).2 :=
  ⟨initPermStore p, holds_initAndSave own saves⟩

/-- With an Owner, a boot loads what the variable holds. -/
theorem holds_boot {flash : Option Variable} {store : PermissionStore} (own : OwnAttributes flash)
    (persisted : Persisted p flash store) : Holds p (boot p true flash) store := by
  have loaded : Holds p (reload p ⟨none, flash⟩).2 store := Holds.reload own persisted
  have succeeds : (reload p ⟨none, flash⟩).1 = .success := by
    obtain ⟨read, reads, _⟩ := persisted
    simp [reload, loadFromFlash, reads]
  rw [boot, if_pos rfl]
  generalize reload p ⟨none, flash⟩ = answer at loaded succeeds
  obtain ⟨status, loadedState⟩ := answer
  cases succeeds
  exact loaded

section

variable (saves : ∀ flash, (initAndSave p flash).1 = .success) {flash : Option Variable}
  (own : OwnAttributes flash) (ownerEnrolled : Bool)
include saves own

/-- A boot starts from what it finds in the variable, or from the initial store. -/
theorem boot_holds : ∃ store, (readFlash p flash = .ok store ∨ store = initPermStore p) ∧
      Holds p (boot p ownerEnrolled flash) store := by
  have initial := holds_initAndSave own (saves flash)
  cases ownerEnrolled with
  | false => exact ⟨initPermStore p, .inr rfl, initial⟩
  | true =>
    cases reads : readFlash p flash with
    | ok read => exact ⟨read, .inl rfl, holds_boot own ⟨read, reads, .refl read⟩⟩
    | error status =>
      have failed := readFlash_error reads
      cases status with
      | success => cases failed
      | error code =>
        simp only [boot, reload, loadFromFlash, reads, if_true]
        exact ⟨initPermStore p, .inr rfl, initial⟩

theorem synced_boot : Synced p (boot p ownerEnrolled flash) := by
  obtain ⟨store, _, holds⟩ := boot_holds saves own ownerEnrolled
  exact ⟨store, holds⟩

end

/-! ## What holds of the store in memory and of the one in the variable -/

structure Throughout (p : Platform) (has : PermissionStore → Prop) (perms : PermissionState) : Prop where
  memory : ∀ store, perms.store = some store → has store
  flash : ∀ store, Persisted p perms.flash store → has store
  sound : perms.Sound

section

variable {has : PermissionStore → Prop}

theorem Throughout.unloaded (throughout : Throughout p has perms) : Throughout p has ⟨none, perms.flash⟩ where
  memory _ missing := by cases missing
  flash := throughout.flash
  sound := ⟨throughout.sound.own, fun _ missing => by cases missing⟩

variable (respects : ∀ first second, first.Agrees second → has second → has first)
include respects

theorem Holds.throughout {store : PermissionStore} (holds : Holds p perms store) (isSo : has store) :
    Throughout p has perms := by
  obtain ⟨current, isCurrent, agrees⟩ := holds.memory
  refine ⟨fun other isOther => ?_, fun other persisted => ?_, holds.sound⟩
  · cases isCurrent.symm.trans isOther
    exact respects current store agrees isSo
  · exact respects other store (persisted.agrees holds.flash) isSo

theorem Throughout.save (throughout : Throughout p has perms) : Throughout p has (perms.save p).2 := by
  cases isStore : perms.store with
  | none =>
    simp only [PermissionState.save, isStore]
    exact throughout
  | some store =>
    by_cases writes : (perms.save p).1 = .success ∧ store.modified = true
    · exact (Holds.commit throughout.sound isStore writes.2 writes.1).throughout respects (throughout.memory store isStore)
    · rw [save_kept isStore writes]
      exact throughout

theorem Throughout.reload (throughout : Throughout p has perms) : Throughout p has (perms.reload p).2 := by
  cases reads : readFlash p perms.flash with
  | error status =>
    simp only [PermissionState.reload, loadFromFlash, reads]
    exact throughout.unloaded
  | ok read =>
    have persisted : Persisted p perms.flash read := ⟨read, reads, .refl read⟩
    exact (Holds.reload throughout.sound.own persisted).throughout respects (throughout.flash read persisted)

variable (initially : has (initPermStore p))
include initially

theorem Throughout.initAndSave (throughout : Throughout p has perms) :
    Throughout p has (initAndSave p perms.flash).2 := by
  apply Throughout.save respects
  refine ⟨?_, throughout.flash, throughout.sound.own, ?_⟩
  · rintro _ ⟨⟩
    exact initially
  · rintro _ ⟨⟩
    exact initPermStore_unmarked p

theorem Throughout.boot (throughout : Throughout p has perms) (ownerEnrolled : Bool) :
    Throughout p has (boot p ownerEnrolled perms.flash) := by
  cases ownerEnrolled with
  | false => exact throughout.initAndSave respects initially
  | true =>
    have reloaded := throughout.unloaded.reload respects
    rw [PermissionState.boot, if_pos rfl]
    split
    · rename_i loads
      rw [loads] at reloaded
      exact reloaded
    · rename_i loads
      rw [loads] at reloaded
      exact reloaded.initAndSave respects initially

/-- What an enrolment and a packet keep of the store in memory, every step keeps of both. -/
theorem Throughout.step (changes : ∀ properties certIdentity changeType store, has store →
      has (store.identityChange p properties certIdentity changeType).2)
    (applies : ∀ v1Mode identity xml store applied, store.Unmarked → has store →
      store.applyPermissions p v1Mode identity xml = .ok applied → has applied.store)
    (throughout : Throughout p has perms) (event : PermissionEvent) : Throughout p has (perms.step p event) := by
  have sound : Sound (perms.step p event) := throughout.sound.step event
  cases event with
  | identityChange properties certIdentity changeType =>
    cases isStore : perms.store with
    | none =>
      simp only [PermissionState.step, PermissionState.identityChange, isStore]
      exact throughout
    | some store =>
      simp only [PermissionState.step, PermissionState.identityChange, isStore] at sound ⊢
      refine ⟨?_, throughout.flash, sound⟩
      rintro _ ⟨⟩
      exact changes properties certIdentity changeType store (throughout.memory store isStore)
  | packet certs auth data =>
    -- a document that fails reads the store again, one that succeeds replaces it in memory
    rcases step_packet p perms certs auth data with
      same | ⟨_, _, _, _, _, _, reloaded⟩ | ⟨identity, store, applied, _, isStore, succeeds, replaced⟩
    · rw [same]
      exact throughout
    · rw [reloaded]
      exact throughout.reload respects
    · rw [replaced] at sound ⊢
      refine ⟨?_, throughout.flash, sound⟩
      rintro _ ⟨⟩
      have isSo := applies _ _ _ store applied (throughout.sound.unmarked store isStore) (throughout.memory store isStore)
        succeeds
      exact respects _ applied.store ⟨rfl, rfl, rfl, rfl, rfl⟩ isSo
  | lkg op data =>
    rw [step_lkg]
    split
    · split
      · exact throughout.save respects
      · exact throughout.reload respects
    · exact throughout
  | reboot => exact throughout.boot respects initially true

end

end

end PermissionState

end Dfci
