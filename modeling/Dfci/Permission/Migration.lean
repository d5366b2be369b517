import Dfci.Permission.Flash

/-! # Loading what was saved, by this version and by the ones before it

The firmware has had four layouts of the `_SPP` variable. It reads all of them and writes the last one, so a variable of
an older version is rewritten as soon as it is loaded. -/

namespace Dfci

open ByteFields

namespace PermissionStore

/-! ## Version 4 -/

section

variable (p : Platform) (store : PermissionStore) (createdOn savedOn : EfiTime)

/-- A variable of the current version is loaded and left alone. -/
theorem loadFromFlash_encode (fits : store.varSize ≤ maxSizeForVar) :
    loadFromFlash p (some ⟨internalVarAttributes, store.encode createdOn savedOn⟩) = (.success, some { store with
        modified := false
        createdOn := createdOn
        savedOn := savedOn
        entries := store.entries.map (readBack PermissionEntry.dMask) },
        some ⟨internalVarAttributes, store.encode createdOn savedOn⟩) := by
  simp only [loadFromFlash, readFlash_encode store createdOn savedOn p fits]
  rfl

end

/-- What `SaveToFlash` saves, or finds saved already, `LoadFromFlash` gives back. -/
theorem saveToFlash_roundTrip {p : Platform}
    (writes : ∀ data, p.setVariable .permissionStore data = .success) {flash : Option Variable}
    (own : OwnAttributes flash) {store : PermissionStore} (modified : store.modified = true)
    (fits : store.varSize ≤ maxSizeForVar) :
    let saved := saveToFlash p flash store
    saved.1 = .success ∧
      ∃ loaded, loadFromFlash p saved.2.2 = (.success, some loaded, saved.2.2) ∧ loaded.Agrees store := by
  intro saved
  suffices written : saved.1 = .success ∧ ∃ createdOn savedOn : EfiTime,
      saved.2.2 = some ⟨internalVarAttributes, store.encode createdOn savedOn⟩ by
    obtain ⟨succeeds, createdOn, savedOn, isFlash⟩ := written
    rw [isFlash, loadFromFlash_encode p store createdOn savedOn fits]
    exact ⟨succeeds, _, rfl, rfl, rfl, rfl, rfl, rights_readBack store.entries⟩
  rcases saveToFlash_cases p flash store with
    ⟨unmodified, _⟩ | ⟨code, refused⟩ | ⟨_, _, same, kept⟩ | ⟨_, _, written⟩
  · rw [modified] at unmodified
    cases unmodified
  · have fails : (saveToFlash p flash store).1 ≠ .success := by
      rw [refused]
      simp
    rcases saveToFlash_refused modified fails with large | denied
    · omega
    · rw [writes] at denied
      cases denied
  · have isSaved : saved = (.success, store, flash) := kept
    rw [isSaved]
    exact ⟨rfl, flash_of_sameInFlash own same⟩
  · have isSaved : saved = _ := written
    rw [isSaved]
    exact ⟨rfl, _, _, rfl⟩

def oneEntry : PermissionStore where
  version := 2
  lsv := 1
  modified := true
  createdOn := .zero
  savedOn := .zero
  defaultPMask := Mask.default
  defaultDMask := 0
  entries := [⟨.ofString "Device.CameraFront.Enable", 0x81, 0x40, false, by decide⟩]
  version_lt := by decide
  lsv_le := by decide

/-- It is saved over a variable that holds something else. -/
theorem saveToFlash_roundTrip_oneEntry :
    let saved := saveToFlash {} (some ⟨internalVarAttributes, [1, 2, 3]⟩) oneEntry
    saved.1 = .success ∧
      ∃ loaded, loadFromFlash {} saved.2.2 = (.success, some loaded, saved.2.2) ∧ loaded.Agrees oneEntry := by
  have own : OwnAttributes (some ⟨internalVarAttributes, [1, 2, 3]⟩) := by
    rintro var ⟨⟩
    rfl
  exact saveToFlash_roundTrip (fun _ => rfl) own rfl (by decide)

/-! ## The layouts of older versions -/

section

variable (store : PermissionStore) (createdOn savedOn : EfiTime)

/-- `DFCI_PERM_INTERNAL_PROVISIONED_VAR_V1`, with numbers in place of the ids. -/
def encodeV1 (enums : List Nat) : List Byte :=
  store.encodeFront 1 createdOn savedOn ++ (littleEndian 2 store.entries.length ++
    (enums.zip store.entries).flatMap fun (enum, entry) => littleEndian 4 enum ++ [entry.pMask])

/-- `DFCI_PERM_INTERNAL_PROVISIONED_VAR_V2`, which has no delegation masks. -/
def encodeV2 : List Byte :=
  store.encodeFront 2 createdOn savedOn ++ (littleEndian 2 store.entries.length ++ store.entries.flatMap fun entry =>
    [entry.pMask, BitVec.ofNat 8 entry.idSize] ++ entry.id.toMemory)

/-- `DFCI_PERM_INTERNAL_PROVISIONED_VAR` under its first header version. -/
def encodeV3 : List Byte :=
  store.encodeFront 3 createdOn savedOn ++
    (store.defaultDMask :: (littleEndian 2 store.entries.length ++ encodeEntries store.entries))

end

/-- Versions 1 and 2 knew no delegation: all of it is the Owner's. -/
def delegatedToOwner (store : PermissionStore) : PermissionStore :=
  { store with
    defaultDMask := Identity.signerOwner.bit
    entries := store.entries.map fun entry => { entry with dMask := Identity.signerOwner.bit } }

/-- Version 3 could lose the default delegation. -/
def delegatedToUsers (store : PermissionStore) : PermissionStore :=
  { store with defaultDMask := if store.defaultDMask = 0 then Mask.users else store.defaultDMask }

inductive Older (p : Platform) : List Byte → PermissionStore → Prop
  | v1 (store : PermissionStore) (createdOn savedOn : EfiTime) (enums : List Nat) (wide : ∀ enum ∈ enums, enum < 2 ^ 32)
      (translated : enums.map p.v1TranslateEnum = store.entries.map fun entry => some entry.id) :
      Older p (store.encodeV1 createdOn savedOn enums) store.delegatedToOwner
  | v2 (store : PermissionStore) (createdOn savedOn : EfiTime) :
      Older p (store.encodeV2 createdOn savedOn) store.delegatedToOwner
  | v3 (store : PermissionStore) (createdOn savedOn : EfiTime) :
      Older p (store.encodeV3 createdOn savedOn) store.delegatedToUsers

/-! ## Their tables -/

theorem formatV2_reads :
    formatV2.Reads (fun entry => [entry.pMask, BitVec.ofNat 8 entry.idSize]) fun _ => Identity.signerOwner.bit where
  positive := by decide
  size := fun _ => rfl
  pMask := fun _ => rfl
  dMask := fun _ _ _ => rfl
  idSize := fun _ => rfl

/-- The entry loop of version 1 reads back a table of numbers. -/
theorem loadTableV1_written {p : Platform} {enums : List Nat} {entries : List PermissionEntry}
    (wide : ∀ enum ∈ enums, enum < 2 ^ 32)
    (translated : enums.map p.v1TranslateEnum = entries.map fun entry => some entry.id) (before : List Byte)
    (store : PermissionStore) :
    loadTableV1 p (before ++ (enums.zip entries).flatMap fun (enum, entry) => littleEndian 4 enum ++ [entry.pMask])
        entries.length before.length store =
      .ok { store with entries := store.entries ++ entries.map (readBack fun _ => Identity.signerOwner.bit) } := by
  induction entries generalizing enums before store with
  | nil => simp [loadTableV1]
  | cons entry entries ih =>
    cases enums with
    | nil => cases translated
    | cons enum enums =>
      obtain ⟨isId, translated⟩ := List.cons.inj translated
      obtain ⟨fits, wide⟩ := List.forall_mem_cons.mp wide
      let table := (enums.zip entries).flatMap fun (enum, entry) => littleEndian 4 enum ++ [entry.pMask]
      have layout : before ++ (((enum :: enums).zip (entry :: entries)).flatMap fun (enum, entry) =>
          littleEndian 4 enum ++ [entry.pMask]) = before ++ (littleEndian 4 enum ++ (entry.pMask :: table)) := by
        simp [table]
      have rest : before ++ (littleEndian 4 enum ++ (entry.pMask :: table)) =
          (before ++ (littleEndian 4 enum ++ [entry.pMask])) ++ table := by
        simp
      have next : before.length + 5 = (before ++ (littleEndian 4 enum ++ [entry.pMask])).length := by simp
      rw [layout]
      have number : fieldAt (before ++ (littleEndian 4 enum ++ (entry.pMask :: table))) before.length 4 = enum := by
        rw [fieldAt_append_right (Nat.le_refl _), Nat.sub_self]
        exact fieldAt_littleEndian fits _
      have pMask : byteAt (before ++ (littleEndian 4 enum ++ (entry.pMask :: table))) (before.length + 4) =
          entry.pMask := by
        rw [byteAt_append_right (by omega), Nat.add_sub_cancel_left, byteAt_append_right (by simp)]
        simp
      rw [List.length_cons, loadTableV1, number, isId]
      simp only
      rw [pMask, addPermissionEntry_storable entry.storable, next, rest]
      refine Eq.trans (ih wide translated _ _) ?_
      simp [readBack]

/-! ## Parsing them -/

section

variable (p : Platform) (store : PermissionStore) (createdOn savedOn : EfiTime)

/-- The store that a conversion hands to `SaveToFlash`. -/
def converted : PermissionStore :=
  { store with
    modified := true
    createdOn := createdOn
    savedOn := savedOn
    entries := store.entries.map (readBack PermissionEntry.dMask) }

/-- `NumberOfEntries` is read where the two oldest layouts have it. -/
theorem numberOfEntries_formatV2 (headerVersion : Byte) {count : Nat} (fits : count < 2 ^ 16) (table : List Byte) :
    numberOfEntries formatV2 (store.encodeFront headerVersion createdOn savedOn ++ (littleEndian 2 count ++ table)) =
      count := by
  have at46 : formatV2.numberOfEntriesAt = 46 := rfl
  rw [numberOfEntries, at46, fieldAt_append_right (by simp), length_encodeFront]
  exact fieldAt_littleEndian fits table

/-- `DFCI_PERMISSION_MASK__DEFAULT` is the local user, so the two conversions keep the default mask. -/
theorem defaultPMask_kept (mask : Mask) : (if mask = Identity.local.bit then Mask.default else mask) = mask ∧
      (if mask = Identity.local.bit then mask ||| Mask.default else mask) = mask := by
  by_cases isLocal : mask = Identity.local.bit
  · subst isLocal
    decide
  · simp [isLocal]

/-- The entries of the two oldest versions, as they are loaded. -/
theorem entries_delegatedToOwner : (store.delegatedToOwner.converted createdOn savedOn).entries =
      store.entries.map (readBack fun _ => Identity.signerOwner.bit) := by
  simp [converted, delegatedToOwner, readBack]

theorem length_tableV1 {enums : List Nat} {entries : List PermissionEntry} (same : enums.length = entries.length) :
    ((enums.zip entries).flatMap fun (enum, entry) => littleEndian 4 enum ++ [entry.pMask]).length =
      5 * entries.length := by
  simp [List.length_flatMap, same, Nat.mul_comm]

theorem parse_encodeV1 {enums : List Nat} (wide : ∀ enum ∈ enums, enum < 2 ^ 32)
    (translated : enums.map p.v1TranslateEnum = store.entries.map fun entry => some entry.id)
    (fits : store.entries.length < 2 ^ 16) :
    parse p (store.encodeV1 createdOn savedOn enums) = .ok (store.delegatedToOwner.converted createdOn savedOn) := by
  have same : enums.length = store.entries.length := by simpa using congrArg List.length translated
  have size : (store.encodeV1 createdOn savedOn enums).length = 48 + 5 * store.entries.length := by
    rw [encodeV1, List.length_append, List.length_append, length_tableV1 same, length_encodeFront, length_littleEndian]
    omega
  have table := loadTableV1_written wide translated
    (store.encodeFront 1 createdOn savedOn ++ littleEndian 2 store.entries.length)
  simp only [List.append_assoc, List.length_append, length_encodeFront, length_littleEndian, Nat.reduceAdd] at table
  have count : numberOfEntries formatV2 (store.encodeV1 createdOn savedOn enums) = store.entries.length :=
    numberOfEntries_formatV2 _ _ _ _ fits _
  have header : loadHeader (store.encodeV1 createdOn savedOn enums) = _ := loadHeader_encodeFront store createdOn savedOn 1 _
  have headerVersion : byteAt (store.encodeV1 createdOn savedOn enums) 4 = 1 :=
    byteAt_encodeFront store createdOn savedOn 1 _
  simp only [parse, header, headerVersion, convertFromV1, count, size, bind, Except.bind, ne_eq, not_true_eq_false,
    if_false]
  rw [encodeV1, table]
  simp only [(defaultPMask_kept store.defaultPMask).1, List.nil_append, ← entries_delegatedToOwner store createdOn savedOn]
  rfl

theorem parse_encodeV2 (fits : store.entries.length < 2 ^ 16) :
    parse p (store.encodeV2 createdOn savedOn) = .ok (store.delegatedToOwner.converted createdOn savedOn) := by
  have table := formatV2_reads.loadTable
    (store.encodeFront 2 createdOn savedOn ++ littleEndian 2 store.entries.length) store.entries
  rw [List.append_assoc, List.length_append, length_encodeFront, length_littleEndian] at table
  rw [encodeV2]
  simp only [parse, loadHeader_encodeFront, byteAt_encodeFront, bind, Except.bind, convertFromV2]
  rw [numberOfEntries_formatV2 _ _ _ _ fits, table]
  simp only [(defaultPMask_kept store.defaultPMask).2, List.nil_append, ← entries_delegatedToOwner store createdOn savedOn]
  rfl

theorem parse_encodeV3 (fits : store.entries.length < 2 ^ 16) :
    parse p (store.encodeV3 createdOn savedOn) = .ok (store.delegatedToUsers.converted createdOn savedOn) := by
  rw [encodeV3]
  simp only [parse, loadHeader_encodeFront, byteAt_encodeFront, bind, Except.bind]
  rw [loadCurrentFromFlash_encode store createdOn savedOn 3 _ fits]
  rfl

end

/-! ## Migration -/

/-- Different ids have at most one empty one among them. -/
theorem sum_idSize_of_nodup {entries : List PermissionEntry} (distinct : (entries.map PermissionEntry.id).Nodup) :
    2 * entries.length ≤ (entries.map PermissionEntry.idSize).sum +
      if default ∈ entries.map PermissionEntry.id then 1 else 0 := by
  induction entries with
  | nil => simp
  | cons entry entries ih =>
    obtain ⟨fresh, distinct⟩ := List.nodup_cons.mp distinct
    have rest := ih distinct
    have size := entry.idSize_eq
    simp only [List.map_cons, List.length_cons, List.sum_cons, List.mem_cons]
    by_cases empty : default = entry.id
    · rw [← empty] at fresh
      rw [if_neg fresh] at rest
      rw [if_pos (.inl empty)]
      omega
    · have longer : 0 < entry.id.chars.length := by
        rw [List.length_pos_iff]
        exact fun none => empty (AsciiString.ext none.symm)
      simp only [empty, false_or]
      omega

section

variable {p : Platform} {data : List Byte} {store : PermissionStore}

/-- The room a store needs depends on its ids alone. -/
theorem varSize_congr {first second : PermissionStore} (same : first.ids = second.ids) : first.varSize = second.varSize := by
  have lengths : ∀ store : PermissionStore, store.entries.length = store.ids.length := by simp [ids]
  have sizes : ∀ store : PermissionStore, store.entries.map PermissionEntry.idSize =
      store.ids.map fun id => id.strnSizeS maxIdSize := by
    intro store
    rw [ids, List.map_map]
    rfl
  rw [varSize, varSize, lengths, lengths, sizes, sizes, same]

theorem ids_delegatedToOwner (store : PermissionStore) : store.delegatedToOwner.ids = store.ids := by
  simp [ids, delegatedToOwner, Function.comp_def]

theorem varSize_delegatedToOwner (store : PermissionStore) : store.delegatedToOwner.varSize = store.varSize :=
  varSize_congr (ids_delegatedToOwner store)

theorem Older.parses (older : Older p data store) (fits : store.varSize ≤ maxSizeForVar) :
    ∃ createdOn savedOn, parse p data = .ok (store.converted createdOn savedOn) := by
  cases older with
  | v1 old createdOn savedOn enums wide translated =>
    rw [varSize_delegatedToOwner] at fits
    exact ⟨createdOn, savedOn, parse_encodeV1 p old createdOn savedOn wide translated (entries_lt fits)⟩
  | v2 old createdOn savedOn =>
    rw [varSize_delegatedToOwner] at fits
    exact ⟨createdOn, savedOn, parse_encodeV2 p old createdOn savedOn (entries_lt fits)⟩
  | v3 old createdOn savedOn =>
    have same : old.delegatedToUsers.varSize = old.varSize := rfl
    rw [same] at fits
    exact ⟨createdOn, savedOn, parse_encodeV3 p old createdOn savedOn (entries_lt fits)⟩

theorem Older.headerVersion (older : Older p data store) : byteAt data 4 ≠ 4 := by
  cases older with
  | v1 old createdOn savedOn enums =>
    have version : byteAt (old.encodeV1 createdOn savedOn enums) 4 = 1 := byteAt_encodeFront ..
    rw [version]
    decide
  | v2 old createdOn savedOn =>
    have version : byteAt (old.encodeV2 createdOn savedOn) 4 = 2 := byteAt_encodeFront ..
    rw [version]
    decide
  | v3 old createdOn savedOn =>
    have version : byteAt (old.encodeV3 createdOn savedOn) 4 = 3 := byteAt_encodeFront ..
    rw [version]
    decide

/-- The older layouts need no more room than the current one. -/
theorem Older.length_le (older : Older p data store) (distinct : store.ids.Nodup) : data.length ≤ store.varSize := by
  cases older with
  | v1 old createdOn savedOn enums wide translated =>
    have same : enums.length = old.entries.length := by simpa using congrArg List.length translated
    rw [ids_delegatedToOwner] at distinct
    have sizes := sum_idSize_of_nodup distinct
    rw [varSize_delegatedToOwner, varSize, encodeV1, List.length_append, List.length_append, length_tableV1 same,
      length_encodeFront, length_littleEndian]
    split at sizes <;> omega
  | v2 old createdOn savedOn =>
    have table : (old.entries.flatMap fun entry =>
        [entry.pMask, BitVec.ofNat 8 entry.idSize] ++ entry.id.toMemory).length =
          2 * old.entries.length + (old.entries.map PermissionEntry.idSize).sum := by
      induction old.entries with
      | nil => rfl
      | cons entry entries ih =>
        simp only [List.flatMap_cons, List.length_append, ih, List.length_cons, List.map_cons,
          List.sum_cons, AsciiString.length_toMemory, entry.idSize_eq, List.length_nil]
        omega
    rw [varSize_delegatedToOwner, varSize, encodeV2, List.length_append, List.length_append, table, length_encodeFront,
      length_littleEndian]
    omega
  | v3 old createdOn savedOn =>
    have same : old.delegatedToUsers.varSize = old.varSize := rfl
    rw [same, varSize, encodeV3, List.length_append, List.length_cons, List.length_append, length_encodeEntries,
      length_encodeFront, length_littleEndian]
    omega

/-- A variable of an older version is loaded with the rights it stands for, and is of the current version from then
on. -/
theorem migration_keeps_rights (writes : ∀ data, p.setVariable .permissionStore data = .success)
    (older : Older p data store) (distinct : store.ids.Nodup) (fits : store.varSize ≤ maxSizeForVar) :
    ∃ loaded : PermissionStore,
      let flash := some ⟨internalVarAttributes, loaded.encode loaded.createdOn loaded.savedOn⟩
      loadFromFlash p (some ⟨internalVarAttributes, data⟩) = (.success, some loaded, flash) ∧
        loaded.Agrees store ∧ loadFromFlash p flash = (.success, some loaded, flash) := by
  obtain ⟨createdOn, savedOn, parses⟩ := older.parses fits
  have short := older.length_le distinct
  have reads : readFlash p (some ⟨internalVarAttributes, data⟩) = .ok (store.converted createdOn savedOn) := by
    have small : ¬ maxSizeForVar < data.length := by omega
    simp [readFlash, small, parses]
  have modified : (store.converted createdOn savedOn).modified = true := rfl
  have convertedFits : (store.converted createdOn savedOn).varSize ≤ maxSizeForVar := by
    have same : (store.converted createdOn savedOn).ids = store.ids := by
      simp [ids, converted, readBack, Function.comp_def]
    rw [varSize_congr same]
    exact fits
  -- the header version alone makes the new variable differ from the old one
  have differs : sameInFlash (some ⟨internalVarAttributes, data⟩) (store.converted createdOn savedOn) = false := by
    rw [Bool.eq_false_iff]
    intro same
    obtain ⟨_, _, isData⟩ := sameInFlash_encode same
    apply older.headerVersion
    rw [show data = _ from isData, encode_eq]
    exact byteAt_encodeFront ..
  have saves : saveToFlash p (some ⟨internalVarAttributes, data⟩) (store.converted createdOn savedOn) =
      (.success, { store.converted createdOn p.getTime with modified := false },
        some ⟨internalVarAttributes, (store.converted createdOn savedOn).encode createdOn p.getTime⟩) := by
    rw [saveToFlash, modified, differs, if_neg (by decide), if_neg (by omega), if_neg (by decide)]
    simp only [writes]
    rfl
  let loaded : PermissionStore := { store.converted createdOn p.getTime with modified := false }
  have again : loaded.entries.map (readBack PermissionEntry.dMask) = loaded.entries := by
    simp [loaded, converted, readBack, Function.comp_def]
  refine ⟨loaded, ?_, ?_, ?_⟩
  · simp only [loadFromFlash, reads, saves]
    rfl
  · exact ⟨rfl, rfl, rfl, rfl, rights_readBack store.entries⟩
  · rw [loadFromFlash_encode p loaded loaded.createdOn loaded.savedOn convertedFits, again]

end

def numberedPlatform : Platform :=
  { v1TranslateEnum := fun enum => if enum = 7 then some (.ofString "Device.CameraFront.Enable") else none }

theorem migration_keeps_rights_oneEntry : ∃ loaded : PermissionStore,
      let flash := some ⟨internalVarAttributes, loaded.encode loaded.createdOn loaded.savedOn⟩
      loadFromFlash numberedPlatform (some ⟨internalVarAttributes, oneEntry.encodeV1 .zero .zero [7]⟩) =
          (.success, some loaded, flash) ∧
        loaded.Agrees oneEntry.delegatedToOwner ∧
        loadFromFlash numberedPlatform flash = (.success, some loaded, flash) :=
  migration_keeps_rights (fun _ => rfl) (.v1 oneEntry .zero .zero [7] (by decide) (by decide)) (by decide) (by decide)

end PermissionStore

end Dfci
