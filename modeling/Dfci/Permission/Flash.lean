import Dfci.Permission.Store
import Dfci.Platform
import Dfci.Support.Fallible

/-! # The `_SPP` variable: loading and saving the permission store -/

namespace Dfci

open ByteFields

namespace PermissionStore

/-- `SIGNATURE_32('S', 'B', 'C', 'Z')` -/
def varHeaderSig : Nat := 0x5A434253

def maxSizeForVar : Nat := 1024 * 2

/-! ## Layout

All versions start with the signature (4 bytes), the header version (1), `Version` (4),
`LowestSupportedVersion` (4), `CreatedOn` (16), `SavedOn` (16) and `DefaultPMask` (1). Version 4 goes
on with `DefaultDMask` (1), `NumberOfEntries` (2) and the entries. -/

def encodeEntry (entry : PermissionEntry) : List Byte :=
  [entry.pMask, entry.dMask, BitVec.ofNat 8 entry.idSize] ++ entry.id.toMemory

def encodeEntries (entries : List PermissionEntry) : List Byte :=
  entries.flatMap encodeEntry

def encodeHeader (store : PermissionStore) (createdOn savedOn : EfiTime) : List Byte :=
  littleEndian 4 varHeaderSig ++ ([4] ++ (littleEndian 4 store.version ++ (littleEndian 4 store.lsv ++
    (createdOn.raw ++ (savedOn.raw ++ ([store.defaultPMask, store.defaultDMask] ++
      littleEndian 2 store.entries.length))))))

/-- The variable that `SaveToFlash` builds, with the given time stamps. -/
def encode (store : PermissionStore) (createdOn savedOn : EfiTime) : List Byte :=
  store.encodeHeader createdOn savedOn ++ encodeEntries store.entries

/-- `VarSize` in `SaveToFlash`. The structure's own size counts one entry head, so an empty store has
that head taken off again. -/
def varSize (store : PermissionStore) : Nat :=
  52 + 3 * store.entries.length - 3 + (store.entries.map PermissionEntry.idSize).sum

/-- The variable with both time stamps zeroed, as `SaveToFlash` compares it. -/
def zeroTimes (data : List Byte) : List Byte :=
  data.take 13 ++ (List.replicate 32 0 ++ data.drop 45)

/-- The stored variable differs from the new one in its time stamps at most. -/
def sameInFlash (flash : Option Variable) (store : PermissionStore) : Bool :=
  match flash with
  | none => false
  | some var => var.data.length = store.varSize && zeroTimes var.data = store.encode .zero .zero

/-- `SaveToFlash`: the status, the store with its new `Modified` flag and time, and the variable. -/
def saveToFlash (p : Platform) (flash : Option Variable) (store : PermissionStore) :
    EfiStatus × PermissionStore × Option Variable :=
  if !store.modified then
    (.success, store, flash)
  else if maxSizeForVar < store.varSize then
    (.invalidParameter, store, flash)
  else if sameInFlash flash store then
    (.success, store, flash)
  else
    let data := store.encode store.createdOn p.getTime
    match p.setVariable .permissionStore data with
    | .success =>
      (.success, { store with savedOn := p.getTime, modified := false },
        some ⟨internalVarAttributes, data⟩)
    | .error code => (.error code, store, flash)

/-- Where the entry table of a version starts, and where an entry keeps its masks. `IdSize` is the
last byte of an entry's head. -/
structure TableFormat where
  numberOfEntriesAt : Nat
  tableAt : Nat
  headSize : Nat
  dMask : List Byte → Nat → Mask

/-- Version 2: there is no delegation mask, and the Owner gets it. -/
def formatV2 : TableFormat where
  numberOfEntriesAt := 46
  tableAt := 48
  headSize := 2
  dMask := fun _ _ => Identity.signerOwner.bit

/-- Versions 3 and 4 -/
def formatV4 : TableFormat where
  numberOfEntriesAt := 47
  tableAt := 49
  headSize := 3
  dMask := fun data permPtr => byteAt data (permPtr + 1)

/-- The entry loop of `ConvertFromV2` and `LoadCurrentFromFlash`. An entry that cannot be added is
skipped; a table that ends before `NumberOfEntries` entries is an error. -/
def loadTable (format : TableFormat) (data : List Byte) : Nat → Nat → PermissionStore →
    Except EfiStatus PermissionStore
  | 0, _, store => .ok store
  | remaining + 1, permPtr, store =>
    if permPtr < data.length then
      let idAt := permPtr + format.headSize
      let next := idAt + (byteAt data (idAt - 1)).toNat
      if data.length < next then
        .error .compromisedData
      else
        loadTable format data remaining next
          (store.addPermissionEntry (.ofMemory (data.drop idAt)) (byteAt data permPtr) (format.dMask data permPtr)).2
    else
      .error .compromisedData

def numberOfEntries (format : TableFormat) (data : List Byte) : Nat :=
  fieldAt data format.numberOfEntriesAt 2

/-- The entry loop of `ConvertFromV1`: five bytes an entry, an enumeration in place of the id. -/
def loadTableV1 (p : Platform) (data : List Byte) : Nat → Nat → PermissionStore →
    Except EfiStatus PermissionStore
  | 0, _, store => .ok store
  | remaining + 1, permPtr, store =>
    match p.v1TranslateEnum (fieldAt data permPtr 4) with
    | none => .error .compromisedData
    | some id =>
      loadTableV1 p data remaining (permPtr + 5)
        (store.addPermissionEntry id (byteAt data (permPtr + 4)) Identity.signerOwner.bit).2

/-- `ConvertFromV1`, up to its `SaveToFlash` -/
def convertFromV1 (p : Platform) (data : List Byte) (store : PermissionStore) :
    Except EfiStatus PermissionStore :=
  if data.length ≠ 48 + 5 * numberOfEntries formatV2 data then
    .error .compromisedData
  else do
    let loaded ← loadTableV1 p data (numberOfEntries formatV2 data) 48 store
    let defaultPMask := if loaded.defaultPMask = Identity.local.bit then Mask.default else loaded.defaultPMask
    .ok { loaded with defaultPMask := defaultPMask, defaultDMask := Mask.delegatedDefault, modified := true }

/-- `ConvertFromV2`, up to its `SaveToFlash` -/
def convertFromV2 (data : List Byte) (store : PermissionStore) : Except EfiStatus PermissionStore := do
  let loaded ← loadTable formatV2 data (numberOfEntries formatV2 data) 48 store
  let defaultPMask :=
    if loaded.defaultPMask = Identity.local.bit then loaded.defaultPMask ||| Mask.default else loaded.defaultPMask
  .ok { loaded with defaultPMask := defaultPMask, defaultDMask := Mask.delegatedDefault, modified := true }

/-- `LoadCurrentFromFlash` -/
def loadCurrentFromFlash (data : List Byte) (store : PermissionStore) : Except EfiStatus PermissionStore := do
  let loaded ← loadTable formatV4 data (numberOfEntries formatV4 data) 49 store
  .ok { loaded with defaultDMask := byteAt data 46 }

/-- `ConvertFromV3`, up to its `SaveToFlash` -/
def convertFromV3 (store : PermissionStore) : PermissionStore :=
  { store with
    defaultDMask := if store.defaultDMask = 0 then Mask.users else store.defaultDMask
    modified := true }

/-- The header checks of `LoadFromFlash` and the store it allocates. -/
def loadHeader (data : List Byte) : Except EfiStatus PermissionStore :=
  if fieldAt data 0 4 ≠ varHeaderSig then
    .error .compromisedData
  else if older : fieldAt data 5 4 < fieldAt data 9 4 then
    .error .compromisedData
  else
    .ok {
      version := fieldAt data 5 4
      lsv := fieldAt data 9 4
      modified := false
      createdOn := timeAt data 13
      savedOn := timeAt data 29
      defaultPMask := byteAt data 45
      defaultDMask := Mask.delegatedDefault
      entries := []
      version_lt := fieldAt_lt data 5 4
      lsv_le := Nat.le_of_not_lt older }

/-- The store in the variable's bytes; `modified` in it says that it was converted. -/
def parse (p : Platform) (data : List Byte) : Except EfiStatus PermissionStore := do
  let header ← loadHeader data
  match byteAt data 4 with
  | 1 => convertFromV1 p data header
  | 2 => convertFromV2 data header
  | 3 => (loadCurrentFromFlash data header).map convertFromV3
  | 4 => loadCurrentFromFlash data header
  | _ => .error .compromisedData

/-- The store that `LoadFromFlash` finds in the variable. -/
def readFlash (p : Platform) (flash : Option Variable) : Except EfiStatus PermissionStore :=
  match flash with
  | none => .error .notFound
  | some var =>
    if maxSizeForVar < var.data.length then
      .error .notFound
    else if var.attributes ≠ internalVarAttributes then
      .error .notFound
    else
      parse p var.data

/-- `LoadFromFlash`: the status, the new `*Store`, and the variable, which a conversion from an older
version saves again. -/
def loadFromFlash (p : Platform) (flash : Option Variable) :
    EfiStatus × Option PermissionStore × Option Variable :=
  match readFlash p flash with
  | .error status => (status, none, flash)
  | .ok store =>
    -- SaveToFlash does nothing for an unmodified store, so this covers version 4 as well
    let (_, saved, flash) := saveToFlash p flash store
    (.success, some saved, flash)

/-- The variable holds a store with these rights and versions: what `LoadFromFlash` would find there
agrees with it. -/
def Persisted (p : Platform) (flash : Option Variable) (store : PermissionStore) : Prop :=
  ∃ read, readFlash p flash = .ok read ∧ read.Agrees store

instance (p : Platform) (flash : Option Variable) (store : PermissionStore) :
    Decidable (Persisted p flash store) :=
  match reads : readFlash p flash with
  | .error _ => isFalse fun ⟨_, same, _⟩ => by rw [reads] at same; cases same
  | .ok read =>
    decidable_of_iff (read.Agrees store)
      ⟨fun agrees => ⟨read, reads, agrees⟩, fun ⟨_, same, agrees⟩ => by rw [reads] at same; cases same; exact agrees⟩

/-! ## What is written is read back -/

@[simp] theorem length_encodeHeader (store : PermissionStore) (createdOn savedOn : EfiTime) :
    (store.encodeHeader createdOn savedOn).length = 49 := by
  simp [encodeHeader, createdOn.size, savedOn.size]

theorem length_encodeEntry (entry : PermissionEntry) : (encodeEntry entry).length = 3 + entry.idSize := by
  simp [encodeEntry, entry.idSize_eq]
  omega

theorem length_encodeEntries (entries : List PermissionEntry) :
    (encodeEntries entries).length = 3 * entries.length + (entries.map PermissionEntry.idSize).sum := by
  induction entries with
  | nil => rfl
  | cons entry entries ih =>
    simp only [encodeEntries] at ih
    simp only [encodeEntries, List.flatMap_cons, List.length_append, ih, length_encodeEntry,
      List.length_cons, List.map_cons, List.sum_cons]
    omega

theorem length_encode (store : PermissionStore) (createdOn savedOn : EfiTime) :
    (store.encode createdOn savedOn).length = store.varSize := by
  simp only [encode, varSize, List.length_append, length_encodeHeader, length_encodeEntries]
  omega

def readBack (dMask : PermissionEntry → Mask) (entry : PermissionEntry) : PermissionEntry :=
  { entry with dMask := dMask entry, markedForDeletion := false }

/-- A format reads the heads it is given: the entry's mask first, then what there is about delegation, and the size of
the id last. -/
structure TableFormat.Reads (format : TableFormat) (head : PermissionEntry → List Byte)
    (dMask : PermissionEntry → Mask) : Prop where
  positive : 0 < format.headSize
  size : ∀ entry, (head entry).length = format.headSize
  pMask : ∀ entry, byteAt (head entry) 0 = entry.pMask
  dMask : ∀ (before : List Byte) entry after, format.dMask (before ++ (head entry ++ after)) before.length = dMask entry
  idSize : ∀ entry, byteAt (head entry) (format.headSize - 1) = BitVec.ofNat 8 entry.idSize

/-- The entry loop reads back a table that was written entry by entry. -/
theorem TableFormat.Reads.loadTable {format : TableFormat} {head : PermissionEntry → List Byte}
    {dMask : PermissionEntry → Mask} (reads : format.Reads head dMask) (before : List Byte)
    (entries : List PermissionEntry) (store : PermissionStore) :
    PermissionStore.loadTable format (before ++ entries.flatMap fun entry => head entry ++ entry.id.toMemory) entries.length
        before.length store = .ok { store with entries := store.entries ++ entries.map (readBack dMask) } := by
  induction entries generalizing before store with
  | nil => simp [PermissionStore.loadTable]
  | cons entry entries ih =>
    have positive := reads.positive
    have size := reads.size entry
    let table := entries.flatMap fun entry => head entry ++ entry.id.toMemory
    have layout : before ++ ((entry :: entries).flatMap fun entry => head entry ++ entry.id.toMemory) =
        before ++ (head entry ++ (entry.id.toMemory ++ table)) := by
      simp [table]
    have rest : before ++ (head entry ++ (entry.id.toMemory ++ table)) =
        (before ++ (head entry ++ entry.id.toMemory)) ++ table := by
      simp
    rw [layout]
    -- the fields of the first entry
    have pMask : byteAt (before ++ (head entry ++ (entry.id.toMemory ++ table))) before.length = entry.pMask := by
      rw [byteAt_append_right (Nat.le_refl _), Nat.sub_self, byteAt_append_left (by omega), reads.pMask]
    have idSize : (byteAt (before ++ (head entry ++ (entry.id.toMemory ++ table)))
        (before.length + format.headSize - 1)).toNat = entry.idSize := by
      have short := entry.storable.2
      simp only [maxIdSize] at short
      rw [byteAt_append_right (by omega), byteAt_append_left (by omega),
        show before.length + format.headSize - 1 - before.length = format.headSize - 1 by omega, reads.idSize,
        BitVec.toNat_ofNat, entry.idSize_eq]
      omega
    have id : AsciiString.ofMemory ((before ++ (head entry ++ (entry.id.toMemory ++ table))).drop
        (before.length + format.headSize)) = entry.id := by
      rw [← size, ← List.append_assoc, ← List.length_append, List.drop_left]
      exact entry.id.ofMemory_toMemory_append _
    -- the next entry starts where this one ends
    have next : before.length + format.headSize + entry.idSize =
        (before ++ (head entry ++ entry.id.toMemory)).length := by
      simp only [List.length_append, size, AsciiString.length_toMemory, entry.idSize_eq]
      omega
    have inside : before.length + format.headSize + entry.idSize ≤
        (before ++ (head entry ++ (entry.id.toMemory ++ table))).length := by
      rw [rest, List.length_append, next]
      omega
    rw [List.length_cons, PermissionStore.loadTable, if_pos (by omega)]
    simp only [idSize]
    rw [if_neg (by omega), pMask, reads.dMask, id, addPermissionEntry_storable entry.storable, next, rest]
    have later := ih (before ++ (head entry ++ entry.id.toMemory))
      { store with entries := store.entries ++ [readBack dMask entry] }
    refine Eq.trans later ?_
    simp

def encodeFront (store : PermissionStore) (headerVersion : Byte) (createdOn savedOn : EfiTime) : List Byte :=
  littleEndian 4 varHeaderSig ++ ([headerVersion] ++ (littleEndian 4 store.version ++ (littleEndian 4 store.lsv ++
    (createdOn.raw ++ (savedOn.raw ++ [store.defaultPMask])))))

section

variable (store : PermissionStore) (createdOn savedOn : EfiTime)

@[simp] theorem length_encodeFront (headerVersion : Byte) :
    (store.encodeFront headerVersion createdOn savedOn).length = 46 := by
  simp [encodeFront, createdOn.size, savedOn.size]

theorem byteAt_encodeFront (headerVersion : Byte) (rest : List Byte) :
    byteAt (store.encodeFront headerVersion createdOn savedOn ++ rest) 4 = headerVersion := by
  simp only [encodeFront, List.append_assoc]
  rw [byteAt_append_right (by simp)]
  simp

theorem loadHeader_encodeFront (headerVersion : Byte) (rest : List Byte) :
    loadHeader (store.encodeFront headerVersion createdOn savedOn ++ rest) = .ok { store with
        modified := false
        createdOn := createdOn
        savedOn := savedOn
        defaultDMask := Mask.delegatedDefault
        entries := [] } := by
  have fields : store.encodeFront headerVersion createdOn savedOn ++ rest =
      littleEndian 4 varHeaderSig ++ ([headerVersion] ++ (littleEndian 4 store.version ++ (littleEndian 4 store.lsv ++
        (createdOn.raw ++ (savedOn.raw ++ (store.defaultPMask :: rest)))))) := by
    simp [encodeFront]
  generalize store.encodeFront headerVersion createdOn savedOn ++ rest = data at fields ⊢
  have signature : fieldAt data 0 4 = varHeaderSig := by
    rw [fields]
    exact fieldAt_littleEndian (by decide) _
  have version : fieldAt data 5 4 = store.version := by
    rw [fields, fieldAt_append_right (by simp), fieldAt_append_right (by simp)]
    simp only [length_littleEndian, List.length_singleton]
    exact fieldAt_littleEndian store.version_lt _
  have lsv : fieldAt data 9 4 = store.lsv := by
    rw [fields, fieldAt_append_right (by simp), fieldAt_append_right (by simp), fieldAt_append_right (by simp)]
    simp only [length_littleEndian, List.length_singleton]
    exact fieldAt_littleEndian (Nat.lt_of_le_of_lt store.lsv_le store.version_lt) _
  have created : timeAt data 13 = createdOn := by
    rw [fields, ← List.append_assoc, ← List.append_assoc, ← List.append_assoc]
    exact timeAt_append (by simp) createdOn
  have saved : timeAt data 29 = savedOn := by
    rw [fields, ← List.append_assoc, ← List.append_assoc, ← List.append_assoc, ← List.append_assoc]
    exact timeAt_append (by simp [createdOn.size]) savedOn
  have pMask : byteAt data 45 = store.defaultPMask := by
    rw [fields, ← List.append_assoc, ← List.append_assoc, ← List.append_assoc, ← List.append_assoc,
      ← List.append_assoc, byteAt_append_right (by simp [createdOn.size, savedOn.size])]
    simp [createdOn.size, savedOn.size]
  have notOlder : ¬ store.version < store.lsv := Nat.not_lt.mpr store.lsv_le
  simp [loadHeader, signature, version, lsv, created, saved, pMask, notOlder]

/-- The encoded variable as nested fields, the form in which its fields are read. -/
theorem encode_eq : store.encode createdOn savedOn = store.encodeFront 4 createdOn savedOn ++
        (store.defaultDMask :: (littleEndian 2 store.entries.length ++ encodeEntries store.entries)) := by
  simp [encode, encodeHeader, encodeFront]

/-- The table of versions 3 and 4. -/
theorem formatV4_reads :
    formatV4.Reads (fun entry => [entry.pMask, entry.dMask, BitVec.ofNat 8 entry.idSize]) PermissionEntry.dMask where
  positive := by decide
  size := fun _ => rfl
  pMask := fun _ => rfl
  dMask := by
    intro before entry after
    simp only [formatV4]
    rw [byteAt_append_right (by omega), Nat.add_sub_cancel_left]
    rfl
  idSize := fun _ => rfl

theorem numberOfEntries_encode {front : List Byte} (size : front.length = 46) (dMask : Mask) {count : Nat}
    (fits : count < 2 ^ 16) (table : List Byte) :
    numberOfEntries formatV4 (front ++ (dMask :: (littleEndian 2 count ++ table))) = count := by
  have at47 : formatV4.numberOfEntriesAt = 47 := rfl
  rw [numberOfEntries, at47, fieldAt_append_right (by omega), size]
  exact (fieldAt_cons_succ _ _ 0 2).trans (fieldAt_littleEndian fits _)

/-- `LoadCurrentFromFlash` gives back the entries that were written behind either of the two header versions. -/
theorem loadCurrentFromFlash_encode (headerVersion : Byte) (header : PermissionStore)
    (fits : store.entries.length < 2 ^ 16) :
    loadCurrentFromFlash (store.encodeFront headerVersion createdOn savedOn ++
        (store.defaultDMask :: (littleEndian 2 store.entries.length ++ encodeEntries store.entries))) header =
      .ok { header with
        defaultDMask := store.defaultDMask
        entries := header.entries ++ store.entries.map (readBack PermissionEntry.dMask) } := by
  have size := length_encodeFront store createdOn savedOn headerVersion
  generalize store.encodeFront headerVersion createdOn savedOn = front at size
  have dMask : byteAt (front ++ (store.defaultDMask :: (littleEndian 2 store.entries.length ++
      encodeEntries store.entries))) 46 = store.defaultDMask := by
    rw [byteAt_append_right (by omega), size]
    rfl
  have count := numberOfEntries_encode size store.defaultDMask fits (encodeEntries store.entries)
  have table := formatV4_reads.loadTable (front ++ (store.defaultDMask :: littleEndian 2 store.entries.length))
    store.entries header
  have start : (front ++ (store.defaultDMask :: littleEndian 2 store.entries.length)).length = 49 := by
    simp [size]
  have whole : front ++ (store.defaultDMask :: (littleEndian 2 store.entries.length ++ encodeEntries store.entries)) =
      (front ++ (store.defaultDMask :: littleEndian 2 store.entries.length)) ++ store.entries.flatMap fun entry =>
        [entry.pMask, entry.dMask, BitVec.ofNat 8 entry.idSize] ++ entry.id.toMemory := by
    rw [List.append_assoc]
    rfl
  rw [start, ← whole] at table
  simp only [loadCurrentFromFlash, count, dMask, table, bind, Except.bind]

variable {store}

theorem entries_lt (fits : store.varSize ≤ maxSizeForVar) : store.entries.length < 2 ^ 16 := by
  simp only [varSize, maxSizeForVar] at fits
  omega

variable (store)

/-- A store that fits is read back as it was written, but for its `Modified` flag and the marks of its entries. -/
theorem parse_encode (p : Platform) (fits : store.varSize ≤ maxSizeForVar) :
    parse p (store.encode createdOn savedOn) = .ok { store with
        modified := false
        createdOn := createdOn
        savedOn := savedOn
        entries := store.entries.map (readBack PermissionEntry.dMask) } := by
  rw [encode_eq]
  simp only [parse, loadHeader_encodeFront, byteAt_encodeFront, bind, Except.bind]
  rw [loadCurrentFromFlash_encode store createdOn savedOn 4 _ (entries_lt fits)]
  rfl

theorem readFlash_encode (p : Platform) (fits : store.varSize ≤ maxSizeForVar) :
    readFlash p (some ⟨internalVarAttributes, store.encode createdOn savedOn⟩) = .ok { store with
        modified := false
        createdOn := createdOn
        savedOn := savedOn
        entries := store.entries.map (readBack PermissionEntry.dMask) } := by
  have short : ¬ maxSizeForVar < (store.encode createdOn savedOn).length := by
    rw [length_encode]
    omega
  simp [readFlash, short, parse_encode store createdOn savedOn p fits]

/-- The marks for deletion are no part of the rights. -/
theorem rights_readBack (entries : List PermissionEntry) :
    (entries.map (readBack PermissionEntry.dMask)).map (fun entry => (entry.id, entry.pMask, entry.dMask)) =
      entries.map fun entry => (entry.id, entry.pMask, entry.dMask) := by
  simp [readBack]

theorem persisted_encode (p : Platform) (fits : store.varSize ≤ maxSizeForVar) :
    Persisted p (some ⟨internalVarAttributes, store.encode createdOn savedOn⟩) store :=
  ⟨_, readFlash_encode store createdOn savedOn p fits, rfl, rfl, rfl, rfl, rights_readBack store.entries⟩

end

/-- The time stamps are the 32 bytes from offset 13 on, and nothing else depends on them. -/
theorem encode_split (store : PermissionStore) : ∃ front back : List Byte, front.length = 13 ∧
      ∀ createdOn savedOn : EfiTime,
        store.encode createdOn savedOn = front ++ (createdOn.raw ++ (savedOn.raw ++ back)) := by
  refine ⟨littleEndian 4 varHeaderSig ++ ([4] ++ (littleEndian 4 store.version ++ littleEndian 4 store.lsv)),
    [store.defaultPMask, store.defaultDMask] ++
      (littleEndian 2 store.entries.length ++ encodeEntries store.entries), by simp, ?_⟩
  intro createdOn savedOn
  simp [encode_eq, encodeFront]

/-- The comparison that lets `SaveToFlash` skip the write is exact: the variable holds this store, with
some time stamps. -/
theorem sameInFlash_encode {var : Variable} {store : PermissionStore} (same : sameInFlash (some var) store = true) :
    ∃ createdOn savedOn : EfiTime, var.data = store.encode createdOn savedOn := by
  simp only [sameInFlash, Bool.and_eq_true, decide_eq_true_eq] at same
  obtain ⟨size, equal⟩ := same
  obtain ⟨front, back, frontSize, split⟩ := encode_split store
  have long : 45 ≤ var.data.length := by
    rw [size, varSize]
    omega
  have zeros : EfiTime.zero.raw ++ EfiTime.zero.raw = List.replicate 32 (0 : Byte) := by
    simp [EfiTime.zero]
  rw [zeroTimes, split, ← List.append_assoc EfiTime.zero.raw, zeros] at equal
  obtain ⟨frontEqual, tailEqual⟩ := List.append_inj equal (by simp [frontSize]; omega)
  have backEqual := List.append_cancel_left tailEqual
  refine ⟨⟨sliceAt var.data 13 16, length_sliceAt (by omega)⟩, ⟨sliceAt var.data 29 16, length_sliceAt (by omega)⟩, ?_⟩
  rw [split, ← frontEqual, ← backEqual]
  simp only [sliceAt]
  have third := List.take_append_drop 16 (var.data.drop 29)
  rw [List.drop_drop] at third
  have second := List.take_append_drop 16 (var.data.drop 13)
  rw [List.drop_drop] at second
  rw [third, second, List.take_append_drop]

/-! ## Saving and loading -/

theorem Persisted.congr {p : Platform} {flash : Option Variable} {first second : PermissionStore}
    (persisted : Persisted p flash first) (agrees : first.Agrees second) : Persisted p flash second := by
  obtain ⟨read, reads, same⟩ := persisted
  exact ⟨read, reads, same.trans agrees⟩

theorem Persisted.agrees {p : Platform} {flash : Option Variable} {first second : PermissionStore}
    (left : Persisted p flash first) (right : Persisted p flash second) : first.Agrees second := by
  obtain ⟨read, reads, agrees⟩ := left
  obtain ⟨other, readsOther, agreesOther⟩ := right
  rw [reads] at readsOther
  cases readsOther
  exact agrees.symm.trans agreesOther

/-- Everything `SaveToFlash` can do: keep the variable, with or without success, or write it. -/
theorem saveToFlash_cases (p : Platform) (flash : Option Variable) (store : PermissionStore) :
    (store.modified = false ∧ saveToFlash p flash store = (.success, store, flash)) ∨
    (∃ code, saveToFlash p flash store = (.error code, store, flash)) ∨
    (store.modified = true ∧ store.varSize ≤ maxSizeForVar ∧ sameInFlash flash store = true ∧
      saveToFlash p flash store = (.success, store, flash)) ∨ (store.modified = true ∧ store.varSize ≤ maxSizeForVar ∧
      saveToFlash p flash store = (.success, { store with savedOn := p.getTime, modified := false },
          some ⟨internalVarAttributes, store.encode store.createdOn p.getTime⟩)) := by
  by_cases modified : store.modified = true
  · by_cases large : maxSizeForVar < store.varSize
    · exact .inr (.inl ⟨2, by simp [saveToFlash, modified, large]⟩)
    · by_cases same : sameInFlash flash store = true
      · exact .inr (.inr (.inl ⟨modified, Nat.le_of_not_lt large, same, by simp [saveToFlash, modified, large, same]⟩))
      · cases outcome : p.setVariable .permissionStore (store.encode store.createdOn p.getTime) with
        | success =>
          refine .inr (.inr (.inr ⟨modified, Nat.le_of_not_lt large, ?_⟩))
          simp [saveToFlash, modified, large, same, outcome]
        | error code => exact .inr (.inl ⟨code, by simp [saveToFlash, modified, large, same, outcome]⟩)
  · exact .inl ⟨by simpa using modified, by simp [saveToFlash, modified]⟩

section

variable {p : Platform} {flash : Option Variable} {store : PermissionStore}

/-- A modified store is not written when it is too large, or when the variable services refuse it. -/
theorem saveToFlash_refused (modified : store.modified = true) (fails : (saveToFlash p flash store).1 ≠ .success) :
    maxSizeForVar < store.varSize ∨ (p.setVariable .permissionStore
      (store.encode store.createdOn p.getTime)).isError = true := by
  by_contra accepted
  rw [not_or] at accepted
  apply fails
  cases outcome : p.setVariable .permissionStore (store.encode store.createdOn p.getTime) with
  | success =>
    by_cases same : sameInFlash flash store = true <;> simp [saveToFlash, modified, accepted.1, outcome, same]
  | error code => exact absurd (by simp [outcome]) accepted.2

/-- A modified store that is saved fits in the variable, and where writing would be refused it is already there. -/
theorem saveToFlash_accepted (modified : store.modified = true) (saved : (saveToFlash p flash store).1 = .success) :
    store.varSize ≤ maxSizeForVar ∧
      ((p.setVariable .permissionStore (store.encode store.createdOn p.getTime)).isError = true →
        (saveToFlash p flash store).2.2 = flash) := by
  by_cases large : maxSizeForVar < store.varSize
  · simp [saveToFlash, modified, large] at saved
  · refine ⟨Nat.le_of_not_lt large, ?_⟩
    intro refused
    cases outcome : p.setVariable .permissionStore (store.encode store.createdOn p.getTime) with
    | success =>
      rw [outcome] at refused
      contradiction
    | error code =>
      by_cases same : sameInFlash flash store = true <;> simp [saveToFlash, modified, large, same, outcome]

end

theorem saveToFlash_agrees (p : Platform) (flash : Option Variable) (store : PermissionStore) :
    (saveToFlash p flash store).2.1.Agrees store := by
  rcases saveToFlash_cases p flash store with
    ⟨_, kept⟩ | ⟨_, refused⟩ | ⟨_, _, _, kept⟩ | ⟨_, _, written⟩
  · rw [kept]; exact .refl store
  · rw [refused]; exact .refl store
  · rw [kept]; exact .refl store
  · rw [written]; exact ⟨rfl, rfl, rfl, rfl, rfl⟩

theorem saveToFlash_entries (p : Platform) (flash : Option Variable) (store : PermissionStore) :
    (saveToFlash p flash store).2.1.entries = store.entries := by
  rcases saveToFlash_cases p flash store with
    ⟨_, kept⟩ | ⟨_, refused⟩ | ⟨_, _, _, kept⟩ | ⟨_, _, written⟩
  · rw [kept]
  · rw [refused]
  · rw [kept]
  · rw [written]

def OwnAttributes (flash : Option Variable) : Prop :=
  ∀ var, flash = some var → var.attributes = internalVarAttributes

theorem saveToFlash_ownAttributes (p : Platform) {flash : Option Variable} (own : OwnAttributes flash)
    (store : PermissionStore) : OwnAttributes (saveToFlash p flash store).2.2 := by
  rcases saveToFlash_cases p flash store with
    ⟨_, kept⟩ | ⟨_, refused⟩ | ⟨_, _, _, kept⟩ | ⟨_, _, written⟩
  · rw [kept]; exact own
  · rw [refused]; exact own
  · rw [kept]; exact own
  · rw [written]
    intro var isVar
    cases isVar
    rfl

/-- Where `SaveToFlash` finds nothing to write, the variable is as it would have written it. -/
theorem flash_of_sameInFlash {flash : Option Variable} {store : PermissionStore} (own : OwnAttributes flash)
    (same : sameInFlash flash store = true) :
    ∃ createdOn savedOn : EfiTime, flash = some ⟨internalVarAttributes, store.encode createdOn savedOn⟩ := by
  cases flash with
  | none => simp [sameInFlash] at same
  | some var =>
    obtain ⟨createdOn, savedOn, data⟩ := sameInFlash_encode same
    have attributes : var.attributes = internalVarAttributes := own var rfl
    refine ⟨createdOn, savedOn, ?_⟩
    rw [← data, ← attributes]

/-- A successful `SaveToFlash` of a modified store leaves that store in flash. -/
theorem saveToFlash_persisted {p : Platform} {flash : Option Variable} {store : PermissionStore}
    (own : OwnAttributes flash) (modified : store.modified = true)
    (saved : (saveToFlash p flash store).1 = .success) : Persisted p (saveToFlash p flash store).2.2 store := by
  rcases saveToFlash_cases p flash store with
    ⟨unmodified, _⟩ | ⟨_, refused⟩ | ⟨_, fits, same, kept⟩ | ⟨_, fits, written⟩
  · rw [modified] at unmodified
    contradiction
  · rw [refused] at saved
    contradiction
  · rw [kept]
    obtain ⟨createdOn, savedOn, isFlash⟩ := flash_of_sameInFlash own same
    rw [isFlash]
    exact persisted_encode store createdOn savedOn p fits
  · rw [written]
    exact persisted_encode store _ _ p fits

theorem addPermissionEntry_unmarked {store : PermissionStore} (unmarked : store.Unmarked) (id : SettingId)
    (pMask dMask : Mask) : (store.addPermissionEntry id pMask dMask).2.Unmarked := by
  rcases addPermissionEntry_cases store id pMask dMask with ⟨_, added⟩ | kept
  · rw [added]
    intro entry mem
    rcases List.mem_append.mp mem with old | new
    · exact unmarked entry old
    · rw [List.mem_singleton.mp new]
  · rw [kept]
    exact unmarked

/-! ### What the parser keeps, whatever the version -/

section

variable (holds : PermissionStore → Prop)
  (adds : ∀ store id pMask dMask, holds store → holds (store.addPermissionEntry id pMask dMask).2)
include adds

theorem loadTable_invariant {format : TableFormat} {data : List Byte} {remaining permPtr : Nat}
    {store loaded : PermissionStore} (initially : holds store)
    (loads : loadTable format data remaining permPtr store = .ok loaded) : holds loaded := by
  induction remaining generalizing permPtr store with
  | zero =>
    cases loads
    exact initially
  | succ remaining ih =>
    simp only [loadTable] at loads
    split at loads
    · split at loads
      · cases loads
      · exact ih (adds _ _ _ _ initially) loads
    · cases loads

theorem loadTableV1_invariant {p : Platform} {data : List Byte} {remaining permPtr : Nat}
    {store loaded : PermissionStore} (initially : holds store)
    (loads : loadTableV1 p data remaining permPtr store = .ok loaded) : holds loaded := by
  induction remaining generalizing permPtr store with
  | zero =>
    cases loads
    exact initially
  | succ remaining ih =>
    simp only [loadTableV1] at loads
    split at loads
    · cases loads
    · exact ih (adds _ _ _ _ initially) loads

variable (converts : ∀ (store : PermissionStore) (defaultPMask defaultDMask : Mask) (modified : Bool), holds store →
  holds { store with defaultPMask := defaultPMask, defaultDMask := defaultDMask, modified := modified })
include converts

theorem loadCurrentFromFlash_invariant {data : List Byte} {header loaded : PermissionStore} (initially : holds header)
    (loads : loadCurrentFromFlash data header = .ok loaded) : holds loaded := by
  obtain ⟨table, isTable, result⟩ := Fallible.bind_eq_ok.mp loads
  cases result
  exact converts table table.defaultPMask _ table.modified (loadTable_invariant holds adds initially isTable)

/-- What the header has, and what adding entries and replacing the default masks keep, every parsed store has. -/
theorem parse_invariant {p : Platform} {data : List Byte} {store : PermissionStore}
    (initially : ∀ header, loadHeader data = .ok header → holds header) (parses : parse p data = .ok store) :
    holds store := by
  obtain ⟨header, isHeader, rest⟩ := Fallible.bind_eq_ok.mp parses
  have atFirst := initially header isHeader
  split at rest
  · rw [convertFromV1] at rest
    split at rest
    · cases rest
    · obtain ⟨table, isTable, result⟩ := Fallible.bind_eq_ok.mp rest
      cases result
      exact converts table _ _ _ (loadTableV1_invariant holds adds atFirst isTable)
  · obtain ⟨table, isTable, result⟩ := Fallible.bind_eq_ok.mp rest
    cases result
    exact converts table _ _ _ (loadTable_invariant holds adds atFirst isTable)
  · cases loads : loadCurrentFromFlash data header with
    | error status =>
      rw [loads] at rest
      cases rest
    | ok loaded =>
      rw [loads] at rest
      cases rest
      -- version 3 is the current one, with a default that was not kept
      exact converts loaded loaded.defaultPMask _ true (loadCurrentFromFlash_invariant holds adds converts atFirst loads)
  · exact loadCurrentFromFlash_invariant holds adds converts atFirst rest
  · cases rest

end

section

variable {p : Platform} {data : List Byte}

/-- The header gives the versions, and no entry. -/
theorem loadHeader_eq_ok {header : PermissionStore} (loads : loadHeader data = .ok header) :
    header.entries = [] ∧ header.version = fieldAt data 5 4 ∧ header.lsv = fieldAt data 9 4 := by
  rw [loadHeader] at loads
  split at loads
  · cases loads
  · split at loads
    · cases loads
    · cases loads
      exact ⟨rfl, rfl, rfl⟩

/-- Whatever its version, a loaded store has no entry marked for deletion. -/
theorem parse_unmarked {store : PermissionStore} (parses : parse p data = .ok store) : store.Unmarked := by
  refine parse_invariant Unmarked (fun store id pMask dMask unmarked => addPermissionEntry_unmarked unmarked _ _ _)
    (fun _ _ _ _ unmarked => unmarked) ?_ parses
  intro header loads
  simp [Unmarked, (loadHeader_eq_ok loads).1]

theorem readFlash_unmarked {flash : Option Variable} {store : PermissionStore}
    (reads : readFlash p flash = .ok store) : store.Unmarked := by
  simp only [readFlash] at reads
  split at reads
  · contradiction
  · split at reads
    · contradiction
    · split at reads
      · contradiction
      · exact parse_unmarked reads

theorem loadFromFlash_unmarked {flash : Option Variable} {store : PermissionStore}
    (loads : (loadFromFlash p flash).2.1 = some store) : store.Unmarked := by
  simp only [loadFromFlash] at loads
  split at loads
  · contradiction
  · rename_i read reads
    cases loads
    intro entry mem
    rw [saveToFlash_entries] at mem
    exact readFlash_unmarked reads entry mem

/-- `LoadFromFlash` succeeds where a store is persisted, gives a store that agrees with it, and leaves it
persisted, whether or not it had to convert the variable. -/
theorem Persisted.loads {flash : Option Variable} {store : PermissionStore} (persisted : Persisted p flash store)
    (own : OwnAttributes flash) : ∃ loaded flash', loadFromFlash p flash = (.success, some loaded, flash') ∧
      loaded.Agrees store ∧ loaded.Unmarked ∧ Persisted p flash' store ∧ OwnAttributes flash' := by
  obtain ⟨read, reads, agrees⟩ := persisted
  have unmarked := readFlash_unmarked reads
  refine ⟨(saveToFlash p flash read).2.1, (saveToFlash p flash read).2.2, ?_, ?_, ?_, ?_, ?_⟩
  · simp [loadFromFlash, reads]
  · exact (saveToFlash_agrees p flash read).trans agrees
  · intro entry mem
    rw [saveToFlash_entries] at mem
    exact unmarked entry mem
  · rcases saveToFlash_cases p flash read with
      ⟨_, kept⟩ | ⟨_, refused⟩ | ⟨_, _, _, kept⟩ | ⟨_, fits, written⟩
    · rw [kept]; exact ⟨read, reads, agrees⟩
    · rw [refused]; exact ⟨read, reads, agrees⟩
    · rw [kept]; exact ⟨read, reads, agrees⟩
    · rw [written]
      exact (persisted_encode read _ _ p fits).congr agrees
  · exact saveToFlash_ownAttributes p own read

theorem loadTable_error {format : TableFormat} {data : List Byte} {remaining permPtr : Nat}
    {store : PermissionStore} {status : EfiStatus}
    (fails : loadTable format data remaining permPtr store = .error status) : status = .compromisedData := by
  induction remaining generalizing permPtr store with
  | zero => contradiction
  | succ remaining ih =>
    simp only [loadTable] at fails
    split at fails
    · split at fails
      · cases fails
        rfl
      · exact ih fails
    · cases fails
      rfl

theorem loadTableV1_error {remaining permPtr : Nat} {store : PermissionStore} {status : EfiStatus}
    (fails : loadTableV1 p data remaining permPtr store = .error status) : status = .compromisedData := by
  induction remaining generalizing permPtr store with
  | zero => contradiction
  | succ remaining ih =>
    simp only [loadTableV1] at fails
    split at fails
    · cases fails
      rfl
    · exact ih fails

theorem loadCurrentFromFlash_error {data : List Byte} {header : PermissionStore} {status : EfiStatus}
    (fails : loadCurrentFromFlash data header = .error status) : status = .compromisedData := by
  simp only [loadCurrentFromFlash, bind, Except.bind] at fails
  split at fails
  · rename_i tableFails
    cases fails
    exact loadTable_error tableFails
  · contradiction

theorem parse_error {status : EfiStatus} (fails : parse p data = .error status) : status = .compromisedData := by
  simp only [parse, bind, Except.bind] at fails
  split at fails
  · rename_i headerFails
    cases fails
    simp only [loadHeader] at headerFails
    split at headerFails
    · cases headerFails
      rfl
    · split at headerFails
      · cases headerFails
        rfl
      · contradiction
  · rename_i header _
    split at fails
    · simp only [convertFromV1, bind, Except.bind] at fails
      split at fails
      · cases fails
        rfl
      · split at fails
        · rename_i tableFails
          cases fails
          exact loadTableV1_error tableFails
        · contradiction
    · simp only [convertFromV2, bind, Except.bind] at fails
      split at fails
      · rename_i tableFails
        cases fails
        exact loadTable_error tableFails
      · contradiction
    · cases current : loadCurrentFromFlash data header with
      | error code =>
        simp only [current, Except.map, Except.error.injEq] at fails
        rw [← fails]
        exact loadCurrentFromFlash_error current
      | ok loaded => simp [current, Except.map] at fails
    · exact loadCurrentFromFlash_error fails
    · cases fails
      rfl

theorem readFlash_error {flash : Option Variable} {status : EfiStatus}
    (fails : readFlash p flash = .error status) : status.isError = true := by
  simp only [readFlash] at fails
  split at fails
  · cases fails
    rfl
  · split at fails
    · cases fails
      rfl
    · split at fails
      · cases fails
        rfl
      · rw [parse_error fails]
        rfl

end

end PermissionStore

end Dfci
