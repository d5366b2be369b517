import Dfci.Permission.Flash
import Dfci.Permission.Unsigned

/-! # What loading the permissions reads

`LoadFromFlash` goes through the bytes of `_SPP` with pointers. Here its accesses are checked: there is no answer where a
byte outside the variable is read. -/

namespace Dfci

open ByteFields CString

namespace PermissionStore

/-- What `AddPermissionEntry` reads of an id: its first character, and unless that is a digit the characters up to the null,
as far as an id can be long. -/
def readId (data : List Byte) (idAt : Nat) : Option SettingId := do
  let first ← (data.drop idAt).head?
  if AsciiString.isDigit first then
    return .ofMemory (data.drop idAt)
  let _ ← scan (data.drop idAt) maxIdSize
  return .ofMemory (data.drop idAt)

def TableFormat.next (format : TableFormat) (data : List Byte) (permPtr : Nat) : Nat :=
  permPtr + format.headSize + (byteAt data (permPtr + format.headSize - 1)).toNat

/-- The entry loop. The masks and `IdSize` are in the head of the entry. -/
def loadTableAccess (format : TableFormat) (data : List Byte) : Nat → Nat → PermissionStore →
    Option (Except EfiStatus PermissionStore)
  | 0, _, store => some (.ok store)
  | remaining + 1, permPtr, store =>
    if permPtr < data.length then do
      let _ ← load data permPtr format.headSize
      let next := format.next data permPtr
      if data.length < next then
        return .error .compromisedData
      let id ← readId data (permPtr + format.headSize)
      loadTableAccess format data remaining next
        (store.addPermissionEntry id (byteAt data permPtr) (format.dMask data permPtr)).2
    else
      some (.error .compromisedData)

def loadTableV1Access (p : Platform) (data : List Byte) : Nat → Nat → PermissionStore →
    Option (Except EfiStatus PermissionStore)
  | 0, _, store => some (.ok store)
  | remaining + 1, permPtr, store => do
    let _ ← load data permPtr 5
    match p.v1TranslateEnum (fieldAt data permPtr 4) with
    | none => return .error .compromisedData
    | some id =>
      loadTableV1Access p data remaining (permPtr + 5)
        (store.addPermissionEntry id (byteAt data (permPtr + 4)) Identity.signerOwner.bit).2

def convertFromV1Access (p : Platform) (data : List Byte) (store : PermissionStore) :
    Option (Except EfiStatus PermissionStore) := do
  let count ← loadField data formatV2.numberOfEntriesAt 2
  if data.length ≠ 48 + 5 * count then
    return .error .compromisedData
  let loaded ← loadTableV1Access p data count 48 store
  return do
    let loaded ← loaded
    let defaultPMask := if loaded.defaultPMask = Identity.local.bit then Mask.default else loaded.defaultPMask
    .ok { loaded with defaultPMask := defaultPMask, defaultDMask := Mask.delegatedDefault, modified := true }

def convertFromV2Access (data : List Byte) (store : PermissionStore) : Option (Except EfiStatus PermissionStore) := do
  let count ← loadField data formatV2.numberOfEntriesAt 2
  let loaded ← loadTableAccess formatV2 data count 48 store
  return do
    let loaded ← loaded
    let defaultPMask :=
      if loaded.defaultPMask = Identity.local.bit then loaded.defaultPMask ||| Mask.default else loaded.defaultPMask
    .ok { loaded with defaultPMask := defaultPMask, defaultDMask := Mask.delegatedDefault, modified := true }

def loadCurrentFromFlashAccess (data : List Byte) (store : PermissionStore) :
    Option (Except EfiStatus PermissionStore) := do
  let count ← loadField data formatV4.numberOfEntriesAt 2
  let loaded ← loadTableAccess formatV4 data count 49 store
  return do
    let loaded ← loaded
    .ok { loaded with defaultDMask := byteAt data 46 }

def loadHeaderAccess (data : List Byte) : Option (Except EfiStatus PermissionStore) := do
  let signature ← loadField data 0 4
  if signature ≠ varHeaderSig then
    return .error .compromisedData
  let version ← loadField data 5 4
  let lowestSupportedVersion ← loadField data 9 4
  if version < lowestSupportedVersion then
    return .error .compromisedData
  let _ ← load data 13 33
  return loadHeader data

def parseAccess (p : Platform) (data : List Byte) : Option (Except EfiStatus PermissionStore) := do
  match ← loadHeaderAccess data with
  | .error status => return .error status
  | .ok header =>
    match byteAt data 4 with
    | 1 => convertFromV1Access p data header
    | 2 => convertFromV2Access data header
    | 3 => (loadCurrentFromFlashAccess data header).map fun loaded => loaded.map convertFromV3
    | 4 => loadCurrentFromFlashAccess data header
    | _ => return .error .compromisedData

/-- `LoadFromFlash` up to the conversion's `SaveToFlash`, with checked accesses. -/
def readFlashAccess (p : Platform) (flash : Option Variable) : Option (Except EfiStatus PermissionStore) :=
  match flash with
  | none => some (.error .notFound)
  | some var =>
    if maxSizeForVar < var.data.length then
      some (.error .notFound)
    else if var.attributes ≠ internalVarAttributes then
      some (.error .notFound)
    else
      parseAccess p var.data

/-! ## The layout of a variable that can be read -/

/-- The first byte of the id is in the variable, and if it is no digit then so is the null, or as much as an id can be
long. -/
def IdWithin (data : List Byte) (idAt : Nat) : Prop :=
  idAt < data.length ∧
    (AsciiString.isDigit (byteAt data idAt) = true ∨ idAt + maxIdSize ≤ data.length ∨ 0 ∈ data.drop idAt)

def TableWithin (format : TableFormat) (data : List Byte) : Nat → Nat → Prop
  | 0, _ => True
  | remaining + 1, permPtr =>
    permPtr < data.length → permPtr + format.headSize ≤ data.length ∧
      (format.next data permPtr ≤ data.length →
        IdWithin data (permPtr + format.headSize) ∧ TableWithin format data remaining (format.next data permPtr))

def TableComplete (format : TableFormat) (data : List Byte) : Nat → Nat → Prop
  | 0, _ => True
  | remaining + 1, permPtr =>
    permPtr < data.length ∧ format.next data permPtr ≤ data.length ∧
      TableComplete format data remaining (format.next data permPtr)

theorem head?_drop_eq {data : List Byte} {idAt : Nat} (inside : idAt < data.length) :
    (data.drop idAt).head? = some (byteAt data idAt) := by
  rw [List.head?_drop, List.getElem?_eq_getElem inside, byteAt, List.getD_eq_getElem?_getD,
    List.getElem?_eq_getElem inside, Option.getD_some]

theorem readId_within {data : List Byte} {idAt : Nat} (within : IdWithin data idAt) :
    readId data idAt = some (.ofMemory (data.drop idAt)) := by
  obtain ⟨inside, readable⟩ := within
  have first := head?_drop_eq inside
  simp only [readId, first, Option.bind_eq_bind, Option.bind_some, Option.pure_def]
  split
  · rfl
  · rename_i notDigit
    have scanned : (scan (data.drop idAt) maxIdSize).isSome = true := by
      rw [scan_isSome_iff, List.length_drop]
      rcases readable with digit | long | null
      · exact absurd digit notDigit
      · exact .inl (by omega)
      · exact .inr null
    obtain ⟨length, isLength⟩ := Option.isSome_iff_exists.mp scanned
    rw [isLength, Option.bind_some]

theorem readId_outside {data : List Byte} {idAt : Nat} (outside : ¬ IdWithin data idAt) : readId data idAt = none := by
  by_cases inside : idAt < data.length
  · have first := head?_drop_eq inside
    have notDigit : ¬ AsciiString.isDigit (byteAt data idAt) = true := fun digit => outside ⟨inside, .inl digit⟩
    have noNull : scan (data.drop idAt) maxIdSize = none := by
      rw [← Option.not_isSome_iff_eq_none, scan_isSome_iff, List.length_drop]
      rintro (long | null)
      · exact outside ⟨inside, .inr (.inl (by omega))⟩
      · exact outside ⟨inside, .inr (.inr null)⟩
    simp only [readId, first, Option.bind_eq_bind, Option.bind_some, if_neg notDigit, noNull, Option.bind_none]
  · have nothing : data.drop idAt = [] := List.drop_eq_nil_of_le (Nat.not_lt.mp inside)
    simp only [readId, nothing, List.head?_nil, Option.bind_eq_bind, Option.bind_none]

/-! ## The loops -/

section

variable (format : TableFormat) (data : List Byte)

theorem loadTable_succ (remaining permPtr : Nat) (store : PermissionStore) :
    loadTable format data (remaining + 1) permPtr store =
      if permPtr < data.length then
        if data.length < format.next data permPtr then .error .compromisedData
        else loadTable format data remaining (format.next data permPtr)
            (store.addPermissionEntry (.ofMemory (data.drop (permPtr + format.headSize))) (byteAt data permPtr)
              (format.dMask data permPtr)).2
      else .error .compromisedData := rfl

theorem loadTableAccess_within {remaining permPtr : Nat} (within : TableWithin format data remaining permPtr)
    (store : PermissionStore) :
    loadTableAccess format data remaining permPtr store = some (loadTable format data remaining permPtr store) := by
  induction remaining generalizing permPtr store with
  | zero => rfl
  | succ remaining ih =>
    rw [loadTableAccess, loadTable_succ]
    split
    · rename_i inside
      obtain ⟨head, rest⟩ := within inside
      simp only [load_inside head, Option.bind_eq_bind, Option.bind_some, Option.pure_def]
      split
      · rfl
      · rename_i fits
        obtain ⟨id, later⟩ := rest (Nat.not_lt.mp fits)
        rw [readId_within id]
        exact ih later _
    · rfl

theorem loadTableAccess_outside {remaining permPtr : Nat} (outside : ¬ TableWithin format data remaining permPtr)
    (store : PermissionStore) : loadTableAccess format data remaining permPtr store = none := by
  induction remaining generalizing permPtr store with
  | zero => exact absurd trivial outside
  | succ remaining ih =>
    rw [TableWithin, Classical.not_imp] at outside
    obtain ⟨inside, rest⟩ := outside
    rw [loadTableAccess, if_pos inside]
    by_cases head : permPtr + format.headSize ≤ data.length
    · rw [not_and, Classical.not_imp] at rest
      obtain ⟨fits, rest⟩ := rest head
      simp only [load_inside head, Option.bind_eq_bind, Option.bind_some]
      rw [if_neg (Nat.not_lt.mpr fits)]
      by_cases id : IdWithin data (permPtr + format.headSize)
      · rw [readId_within id]
        exact ih (fun later => rest ⟨id, later⟩) _
      · rw [readId_outside id]
        rfl
    · simp only [load_outside head, Option.bind_eq_bind, Option.bind_none]

/-- A table that was loaded is complete, and a complete table is loaded. -/
theorem loadTable_ok_iff {remaining permPtr : Nat} (store : PermissionStore) :
    (∃ loaded, loadTable format data remaining permPtr store = .ok loaded) ↔
      TableComplete format data remaining permPtr := by
  induction remaining generalizing permPtr store with
  | zero => exact iff_of_true ⟨store, rfl⟩ trivial
  | succ remaining ih =>
    rw [loadTable_succ, TableComplete]
    by_cases inside : permPtr < data.length
    · rw [if_pos inside]
      by_cases fits : format.next data permPtr ≤ data.length
      · rw [if_neg (Nat.not_lt.mpr fits), ih]
        exact ⟨fun later => ⟨inside, fits, later⟩, fun complete => complete.2.2⟩
      · rw [if_pos (Nat.not_le.mp fits)]
        refine iff_of_false ?_ fun complete => fits complete.2.1
        rintro ⟨_, loaded⟩
        cases loaded
    · rw [if_neg inside]
      refine iff_of_false ?_ fun complete => inside complete.1
      rintro ⟨_, loaded⟩
      cases loaded

theorem loadTableV1Access_eq (p : Platform) {remaining permPtr : Nat}
    (inside : permPtr + 5 * remaining ≤ data.length) (store : PermissionStore) :
    loadTableV1Access p data remaining permPtr store = some (loadTableV1 p data remaining permPtr store) := by
  induction remaining generalizing permPtr store with
  | zero => rfl
  | succ remaining ih =>
    have entry : permPtr + 5 ≤ data.length := by omega
    have later : permPtr + 5 + 5 * remaining ≤ data.length := by omega
    rw [loadTableV1Access, loadTableV1]
    cases translated : p.v1TranslateEnum (fieldAt data permPtr 4) with
    | none => simp only [load_inside entry, Option.bind_eq_bind, Option.bind_some, Option.pure_def]
    | some id =>
      simp only [load_inside entry, Option.bind_eq_bind, Option.bind_some]
      exact ih later _

end

/-! ## The ids -/

def tablePlaces (format : TableFormat) (data : List Byte) : Nat → Nat → List (Nat × Nat)
  | 0, _ => []
  | remaining + 1, permPtr =>
    (permPtr + format.headSize, (byteAt data (permPtr + format.headSize - 1)).toNat) ::
      tablePlaces format data remaining (format.next data permPtr)

/-- `AddPermissionEntry` stores the id. -/
def storesId (id : SettingId) : Bool :=
  !id.startsWithDigit && validIdSize id

theorem ids_addPermissionEntry (store : PermissionStore) (id : SettingId) (pMask dMask : Mask) :
    (store.addPermissionEntry id pMask dMask).2.ids = store.ids ++ if storesId id then [id] else [] := by
  rw [addPermissionEntry, storesId]
  split
  · rename_i digit
    simp [digit]
  · rename_i notDigit
    split
    · rename_i size
      simp [notDigit, size, ids]
    · rename_i size
      simp [size]

def idAt (data : List Byte) (place : Nat × Nat) : SettingId :=
  .ofMemory (data.drop place.1)

theorem ids_loadTable (format : TableFormat) (data : List Byte) {remaining permPtr : Nat} {store loaded : PermissionStore}
    (loads : loadTable format data remaining permPtr store = .ok loaded) : loaded.ids = store.ids ++
      ((tablePlaces format data remaining permPtr).filter fun place => storesId (idAt data place)).map (idAt data) := by
  induction remaining generalizing permPtr store with
  | zero =>
    cases loads
    simp [tablePlaces]
  | succ remaining ih =>
    rw [loadTable_succ] at loads
    split at loads
    · split at loads
      · cases loads
      · rw [ih loads, ids_addPermissionEntry, tablePlaces, List.filter_cons, List.append_assoc]
        congr 1
        cases stores : storesId (.ofMemory (data.drop (permPtr + format.headSize))) with
        | true | false => simp [idAt, stores]
    · cases loads

theorem ofMemory_of_holds {memory text : List Byte} (holds : Holds memory text) :
    (AsciiString.ofMemory memory).toMemory = text ++ [0] := by
  obtain ⟨rest, rfl⟩ := holds.stored
  let string : AsciiString := ⟨text, fun mem => holds.plain 0 mem rfl⟩
  have same : AsciiString.ofMemory (string.toMemory ++ rest) = string := string.ofMemory_toMemory_append rest
  exact congrArg AsciiString.toMemory same

/-- The id is exactly the bytes of the entry when the first null is the last of them. -/
theorem toMemory_idAt {data : List Byte} {place : Nat × Nat} (inside : place.1 + place.2 ≤ data.length) :
    (idAt data place).toMemory = sliceAt data place.1 place.2 ↔
      ∃ text, Holds (data.drop place.1) text ∧ text.length + 1 = place.2 := by
  constructor
  · intro same
    refine ⟨(idAt data place).chars, ⟨(idAt data place).holds_toMemory.plain, ?_⟩, ?_⟩
    · have taken := List.take_prefix place.2 (data.drop place.1)
      rw [← sliceAt, ← same] at taken
      exact taken
    · have lengths := congrArg List.length same
      rwa [AsciiString.length_toMemory, length_sliceAt inside] at lengths
  · rintro ⟨text, holds, size⟩
    rw [idAt, ofMemory_of_holds holds, sliceAt, ← size]
    obtain ⟨rest, isRest⟩ := holds.stored
    rw [← isRest, List.take_left' (by simp)]

theorem tablePlaces_inside (format : TableFormat) (data : List Byte) {remaining permPtr : Nat}
    (complete : TableComplete format data remaining permPtr) :
    ∀ place ∈ tablePlaces format data remaining permPtr, place.1 + place.2 ≤ data.length := by
  induction remaining generalizing permPtr with
  | zero => exact List.forall_mem_nil _
  | succ remaining ih => exact List.forall_mem_cons.mpr ⟨complete.2.1, ih complete.2.2⟩

/-! ## The variable -/

def tableFormat (version : Byte) : Option TableFormat :=
  if version = 2 then some formatV2 else if version = 3 ∨ version = 4 then some formatV4 else none

def placesIn (format : TableFormat) (data : List Byte) : List (Nat × Nat) :=
  tablePlaces format data (numberOfEntries format data) format.tableAt

/-- The signature is in the variable; the versions are, unless it is wrong; and the other fields that all versions have,
unless these are wrong. -/
def HeaderWithin (data : List Byte) : Prop :=
  4 ≤ data.length ∧ (fieldAt data 0 4 = varHeaderSig →
    13 ≤ data.length ∧ (fieldAt data 9 4 ≤ fieldAt data 5 4 → 46 ≤ data.length))

def TableReadable (format : TableFormat) (data : List Byte) : Prop :=
  format.tableAt ≤ data.length ∧ TableWithin format data (numberOfEntries format data) format.tableAt

/-- The table of version 1 is in the variable whenever it is read. -/
def BodyWithin (data : List Byte) : Prop :=
  (byteAt data 4 = 1 → 48 ≤ data.length) ∧
    ∀ format, tableFormat (byteAt data 4) = some format → TableReadable format data

def ReadsWithin (data : List Byte) : Prop :=
  HeaderWithin data ∧
    (fieldAt data 0 4 = varHeaderSig → fieldAt data 9 4 ≤ fieldAt data 5 4 → BodyWithin data)

/-- If the whole table is there, then the ids that are stored fill their entries. -/
def IdsExact (data : List Byte) : Prop :=
  fieldAt data 0 4 = varHeaderSig → fieldAt data 9 4 ≤ fieldAt data 5 4 →
    ∀ format, tableFormat (byteAt data 4) = some format →
      TableComplete format data (numberOfEntries format data) format.tableAt →
        ∀ place ∈ placesIn format data, storesId (idAt data place) = true →
          ∃ text, Holds (data.drop place.1) text ∧ text.length + 1 = place.2

section

variable {p : Platform} {data : List Byte}

theorem loadHeaderAccess_within (within : HeaderWithin data) : loadHeaderAccess data = some (loadHeader data) := by
  obtain ⟨signature, rest⟩ := within
  have signatureIn : 0 + 4 ≤ data.length := by omega
  simp only [loadHeaderAccess, loadField_inside signatureIn, Option.bind_eq_bind, Option.bind_some, Option.pure_def]
  by_cases signed : fieldAt data 0 4 = varHeaderSig
  · obtain ⟨versions, rest⟩ := rest signed
    have versionIn : 5 + 4 ≤ data.length := by omega
    have lsvIn : 9 + 4 ≤ data.length := by omega
    rw [if_neg fun differ => differ signed, loadField_inside versionIn, loadField_inside lsvIn]
    simp only [Option.bind_some]
    by_cases older : fieldAt data 5 4 < fieldAt data 9 4
    · rw [if_pos older]
      simp [loadHeader, signed, older]
    · have restIn : 13 + 33 ≤ data.length := rest (Nat.not_lt.mp older)
      rw [if_neg older, load_inside restIn, Option.bind_some]
  · rw [if_pos signed]
    simp [loadHeader, signed]

theorem loadHeaderAccess_outside (outside : ¬ HeaderWithin data) : loadHeaderAccess data = none := by
  rw [HeaderWithin] at outside
  by_cases signature : 0 + 4 ≤ data.length
  · simp only [loadHeaderAccess, loadField_inside signature, Option.bind_eq_bind, Option.bind_some]
    by_cases signed : fieldAt data 0 4 = varHeaderSig
    · rw [if_neg fun differ => differ signed]
      by_cases versions : 9 + 4 ≤ data.length
      · have versionIn : 5 + 4 ≤ data.length := by omega
        rw [loadField_inside versionIn, loadField_inside versions]
        simp only [Option.bind_some]
        by_cases older : fieldAt data 5 4 < fieldAt data 9 4
        · exact absurd ⟨by omega, fun _ => ⟨by omega, fun newer => by omega⟩⟩ outside
        · have restOut : ¬ 13 + 33 ≤ data.length := fun inside =>
            outside ⟨by omega, fun _ => ⟨by omega, fun _ => by omega⟩⟩
          rw [if_neg older, load_outside restOut]
          rfl
      · rw [loadField_outside versions]
        cases loadField data 5 4 <;> rfl
    · exact absurd ⟨by omega, fun same => absurd same signed⟩ outside
  · simp only [loadHeaderAccess, loadField_outside signature, Option.bind_eq_bind, Option.bind_none]

theorem loadHeader_ok_iff : (∃ header, loadHeader data = .ok header) ↔
      fieldAt data 0 4 = varHeaderSig ∧ fieldAt data 9 4 ≤ fieldAt data 5 4 := by
  rw [loadHeader]
  split
  · rename_i unsigned
    refine iff_of_false ?_ fun both => unsigned both.1
    rintro ⟨_, loaded⟩
    cases loaded
  · rename_i signed
    split
    · rename_i older
      refine iff_of_false ?_ fun both => Nat.not_lt.mpr both.2 older
      rintro ⟨_, loaded⟩
      cases loaded
    · rename_i newer
      exact iff_of_true ⟨_, rfl⟩ ⟨of_not_not signed, Nat.not_lt.mp newer⟩

/-! The body of each version. -/

theorem convertFromV1Access_eq (size : 48 ≤ data.length) (store : PermissionStore) :
    convertFromV1Access p data store = some (convertFromV1 p data store) := by
  have countIn : formatV2.numberOfEntriesAt + 2 ≤ data.length := size
  simp only [convertFromV1Access, loadField_inside countIn, Option.bind_eq_bind, Option.bind_some, Option.pure_def]
  rw [convertFromV1, numberOfEntries]
  split
  · rfl
  · rename_i sized
    rw [loadTableV1Access_eq data p (Nat.le_of_eq (of_not_not sized).symm)]
    rfl

/-- Where the table can be read, what follows the loop is given what the loop of the model leaves. -/
theorem tableAccess_within {α : Type} {format : TableFormat} (count : format.numberOfEntriesAt + 2 = format.tableAt)
    (readable : TableReadable format data) (store : PermissionStore)
    (finish : Except EfiStatus PermissionStore → Option α) : (loadField data format.numberOfEntriesAt 2).bind
        (fun count => (loadTableAccess format data count format.tableAt store).bind finish) =
      finish (loadTable format data (numberOfEntries format data) format.tableAt store) := by
  rw [loadField_inside (count ▸ readable.1), Option.bind_some]
  exact congrArg (Option.bind · finish) (loadTableAccess_within format data readable.2 store)

/-- Where it cannot, the loop reads outside or is not reached. -/
theorem tableAccess_outside {α : Type} {format : TableFormat} (count : format.numberOfEntriesAt + 2 = format.tableAt)
    (unreadable : ¬ TableReadable format data) (store : PermissionStore)
    (finish : Except EfiStatus PermissionStore → Option α) : (loadField data format.numberOfEntriesAt 2).bind
      (fun count => (loadTableAccess format data count format.tableAt store).bind finish) = none := by
  by_cases countIn : format.numberOfEntriesAt + 2 ≤ data.length
  · rw [loadField_inside countIn, Option.bind_some]
    have outside := loadTableAccess_outside format data (fun within => unreadable ⟨count ▸ countIn, within⟩) store
    exact congrArg (Option.bind · finish) outside
  · rw [loadField_outside countIn, Option.bind_none]

theorem convertFromV2Access_eq (readable : TableReadable formatV2 data) (store : PermissionStore) :
    convertFromV2Access data store = some (convertFromV2 data store) :=
  tableAccess_within rfl readable store _

theorem convertFromV2Access_outside (unreadable : ¬ TableReadable formatV2 data) (store : PermissionStore) :
    convertFromV2Access data store = none :=
  tableAccess_outside rfl unreadable store _

theorem loadCurrentFromFlashAccess_eq (readable : TableReadable formatV4 data) (store : PermissionStore) :
    loadCurrentFromFlashAccess data store = some (loadCurrentFromFlash data store) :=
  tableAccess_within rfl readable store _

theorem loadCurrentFromFlashAccess_outside (unreadable : ¬ TableReadable formatV4 data) (store : PermissionStore) :
    loadCurrentFromFlashAccess data store = none :=
  tableAccess_outside rfl unreadable store _

/-- Version 1 or a version with a table; another version is refused. -/
theorem version_cases (version : Byte) : version = 1 ∨ (version = 2 ∧ tableFormat version = some formatV2) ∨
      (version = 3 ∧ tableFormat version = some formatV4) ∨ (version = 4 ∧ tableFormat version = some formatV4) ∨
      ((version ≠ 1 ∧ version ≠ 2 ∧ version ≠ 3 ∧ version ≠ 4) ∧ tableFormat version = none) := by
  by_cases one : version = 1
  · exact .inl one
  by_cases two : version = 2
  · exact .inr (.inl ⟨two, by rw [two]; rfl⟩)
  by_cases three : version = 3
  · exact .inr (.inr (.inl ⟨three, by rw [three]; rfl⟩))
  by_cases four : version = 4
  · exact .inr (.inr (.inr (.inl ⟨four, by rw [four]; rfl⟩)))
  · exact .inr (.inr (.inr (.inr ⟨⟨one, two, three, four⟩, by
      rw [tableFormat, if_neg two, if_neg (not_or.mpr ⟨three, four⟩)]⟩)))

section

variable {header : PermissionStore} (isHeader : loadHeader data = .ok header)
include isHeader

theorem parse_one (one : byteAt data 4 = 1) : parse p data = convertFromV1 p data header := by
  simp only [parse, isHeader, one]
  rfl

theorem parse_two (two : byteAt data 4 = 2) : parse p data = convertFromV2 data header := by
  simp only [parse, isHeader, two]
  rfl

theorem parse_three (three : byteAt data 4 = 3) :
    parse p data = (loadCurrentFromFlash data header).map convertFromV3 := by
  simp only [parse, isHeader, three]
  rfl

theorem parse_four (four : byteAt data 4 = 4) : parse p data = loadCurrentFromFlash data header := by
  simp only [parse, isHeader, four]
  rfl

theorem parse_other (other : byteAt data 4 ≠ 1 ∧ byteAt data 4 ≠ 2 ∧ byteAt data 4 ≠ 3 ∧ byteAt data 4 ≠ 4) :
    parse p data = .error .compromisedData := by
  obtain ⟨one, two, three, four⟩ := other
  simp only [parse, isHeader, bind, Except.bind]
  split <;> first | contradiction | rfl

variable (within : HeaderWithin data)
include within

theorem parseAccess_one (one : byteAt data 4 = 1) : parseAccess p data = convertFromV1Access p data header := by
  simp only [parseAccess, loadHeaderAccess_within within, isHeader, one]
  rfl

theorem parseAccess_two (two : byteAt data 4 = 2) : parseAccess p data = convertFromV2Access data header := by
  simp only [parseAccess, loadHeaderAccess_within within, isHeader, two]
  rfl

theorem parseAccess_three (three : byteAt data 4 = 3) : parseAccess p data =
      (loadCurrentFromFlashAccess data header).map fun loaded => loaded.map convertFromV3 := by
  simp only [parseAccess, loadHeaderAccess_within within, isHeader, three]
  rfl

theorem parseAccess_four (four : byteAt data 4 = 4) :
    parseAccess p data = loadCurrentFromFlashAccess data header := by
  simp only [parseAccess, loadHeaderAccess_within within, isHeader, four]
  rfl

theorem parseAccess_other (other : byteAt data 4 ≠ 1 ∧ byteAt data 4 ≠ 2 ∧ byteAt data 4 ≠ 3 ∧ byteAt data 4 ≠ 4) :
    parseAccess p data = some (.error .compromisedData) := by
  obtain ⟨one, two, three, four⟩ := other
  simp only [parseAccess, loadHeaderAccess_within within, isHeader, Option.bind_eq_bind, Option.bind_some]
  split <;> first | contradiction | rfl

end

/-- Where its accesses are inside, the loading is the one of the model. -/
theorem parseAccess_within (within : ReadsWithin data) : parseAccess p data = some (parse p data) := by
  obtain ⟨header, body⟩ := within
  cases loaded : loadHeader data with
  | error status =>
    simp only [parseAccess, parse, loadHeaderAccess_within header, loaded]
    rfl
  | ok store =>
    obtain ⟨signed, newer⟩ := loadHeader_ok_iff.mp ⟨store, loaded⟩
    obtain ⟨first, table⟩ := body signed newer
    rcases version_cases (byteAt data 4) with one | ⟨two, format⟩ | ⟨three, format⟩ | ⟨four, format⟩ | ⟨other, _⟩
    · rw [parseAccess_one loaded header one, parse_one loaded one, convertFromV1Access_eq (first one)]
    · rw [parseAccess_two loaded header two, parse_two loaded two, convertFromV2Access_eq (table formatV2 format)]
    · rw [parseAccess_three loaded header three, parse_three loaded three,
        loadCurrentFromFlashAccess_eq (table formatV4 format), Option.map_some]
    · rw [parseAccess_four loaded header four, parse_four loaded four,
        loadCurrentFromFlashAccess_eq (table formatV4 format)]
    · rw [parseAccess_other loaded header other, parse_other loaded other]

theorem parseAccess_outside (outside : ¬ ReadsWithin data) : parseAccess p data = none := by
  by_cases header : HeaderWithin data
  · rw [ReadsWithin, not_and, Classical.not_imp, Classical.not_imp] at outside
    obtain ⟨signed, newer, body⟩ := outside header
    obtain ⟨store, loaded⟩ := loadHeader_ok_iff.mpr ⟨signed, newer⟩
    have unreadable : ∀ {format}, tableFormat (byteAt data 4) = some format → byteAt data 4 ≠ 1 →
        ¬ TableReadable format data := by
      intro format isFormat notOne readable
      refine body ⟨fun one => absurd one notOne, fun other isOther => ?_⟩
      cases isFormat.symm.trans isOther
      exact readable
    rcases version_cases (byteAt data 4) with one | ⟨two, format⟩ | ⟨three, format⟩ | ⟨four, format⟩ | ⟨other, noFormat⟩
    · have short : ¬ formatV2.numberOfEntriesAt + 2 ≤ data.length := by
        refine fun size => body ⟨fun _ => size, fun format isFormat => ?_⟩
        rw [one] at isFormat
        cases isFormat
      rw [parseAccess_one loaded header one, convertFromV1Access, loadField_outside short]
      rfl
    · rw [parseAccess_two loaded header two, convertFromV2Access_outside (unreadable format (by rw [two]; decide))]
    · rw [parseAccess_three loaded header three,
        loadCurrentFromFlashAccess_outside (unreadable format (by rw [three]; decide)), Option.map_none]
    · rw [parseAccess_four loaded header four,
        loadCurrentFromFlashAccess_outside (unreadable format (by rw [four]; decide))]
    · refine absurd ⟨fun one => absurd one other.1, fun format isFormat => ?_⟩ body
      rw [noFormat] at isFormat
      cases isFormat
  · rw [parseAccess, loadHeaderAccess_outside header]
    rfl

/-- What is done with the loaded table keeps its ids. -/
theorem ids_finished {loading : Except EfiStatus PermissionStore} {ids : List SettingId}
    (finish : PermissionStore → PermissionStore) (keeps : ∀ loaded, (finish loaded).ids = loaded.ids) :
    (∃ store, (loading >>= fun loaded => .ok (finish loaded)) = .ok store ∧ store.ids = ids) ↔
      ∃ loaded, loading = .ok loaded ∧ loaded.ids = ids := by
  cases loading with
  | error status => simp [bind, Except.bind]
  | ok loaded => simp [bind, Except.bind, keeps]

/-- The store in the variable has the ids of its table. -/
theorem parse_table {format : TableFormat} (isFormat : tableFormat (byteAt data 4) = some format) {header : PermissionStore}
    (isHeader : loadHeader data = .ok header) {ids : List SettingId} :
    (∃ store, parse p data = .ok store ∧ store.ids = ids) ↔
      ∃ loaded, loadTable format data (numberOfEntries format data) format.tableAt header = .ok loaded ∧
        loaded.ids = ids := by
  rcases version_cases (byteAt data 4) with one | ⟨two, is⟩ | ⟨three, is⟩ | ⟨four, is⟩ | ⟨_, is⟩
  · rw [one] at isFormat
    cases isFormat
  · cases is.symm.trans isFormat
    rw [parse_two isHeader two]
    exact ids_finished _ fun _ => rfl
  · cases is.symm.trans isFormat
    refine Iff.trans ?_ (ids_finished (fun loaded => convertFromV3 { loaded with defaultDMask := byteAt data 46 }) fun _ => rfl)
    rw [parse_three isHeader three, loadCurrentFromFlash]
    change _ ↔ ∃ store, (loadTable formatV4 data _ 49 header >>= _) = _ ∧ _
    cases loadTable formatV4 data (numberOfEntries formatV4 data) 49 header <;> rfl
  · cases is.symm.trans isFormat
    rw [parse_four isHeader four]
    exact ids_finished _ fun _ => rfl
  · cases is.symm.trans isFormat

end

/-! ## The law -/

structure LoadLaw (p : Platform) (data : List Byte) : Prop where
  inside : (readFlashAccess p (some ⟨internalVarAttributes, data⟩)).isSome = true
  exact : ∀ store format, readFlash p (some ⟨internalVarAttributes, data⟩) = .ok store →
    tableFormat (byteAt data 4) = some format →
      store.ids.map AsciiString.toMemory =
        ((placesIn format data).filter fun place => storesId (idAt data place)).map fun place =>
          sliceAt data place.1 place.2

theorem ids_loadHeader {data : List Byte} {header : PermissionStore} (isHeader : loadHeader data = .ok header) :
    header.ids = [] := by
  rw [ids, (loadHeader_eq_ok isHeader).1, List.map_nil]

/-- The ids of a table that was loaded are the bytes of their entries if each of them is. -/
theorem ids_exact_iff {format : TableFormat} {data : List Byte} {header loaded : PermissionStore}
    (isHeader : loadHeader data = .ok header)
    (loads : loadTable format data (numberOfEntries format data) format.tableAt header = .ok loaded) :
    loaded.ids.map AsciiString.toMemory = ((placesIn format data).filter fun place => storesId (idAt data place)).map
          (fun place => sliceAt data place.1 place.2) ↔
      ∀ place ∈ placesIn format data, storesId (idAt data place) = true →
        ∃ text, Holds (data.drop place.1) text ∧ text.length + 1 = place.2 := by
  have complete := (loadTable_ok_iff format data header).mp ⟨loaded, loads⟩
  have inside := tablePlaces_inside format data complete
  rw [ids_loadTable format data loads, ids_loadHeader isHeader, List.nil_append, List.map_map, ← placesIn,
    List.map_inj_left]
  constructor
  · intro same place mem stores
    exact (toMemory_idAt (inside place mem)).mp (same place (List.mem_filter.mpr ⟨mem, stores⟩))
  · intro exact place mem
    obtain ⟨inTable, stores⟩ := List.mem_filter.mp mem
    exact (toMemory_idAt (inside place inTable)).mpr (exact place inTable stores)

/-- The loading stays in the variable and stores whole ids exactly when what it reads is there, and in a table that is
there the ids that are stored fill their entries. -/
theorem loadLaw_iff (p : Platform) {data : List Byte} (limit : data.length ≤ maxSizeForVar) :
    LoadLaw p data ↔ ReadsWithin data ∧ IdsExact data := by
  have access : readFlashAccess p (some ⟨internalVarAttributes, data⟩) = parseAccess p data := by
    simp [readFlashAccess, Nat.not_lt.mpr limit]
  have plain : readFlash p (some ⟨internalVarAttributes, data⟩) = parse p data := by
    simp [readFlash, Nat.not_lt.mpr limit]
  have inside : (parseAccess p data).isSome = true ↔ ReadsWithin data := by
    by_cases within : ReadsWithin data
    · rw [parseAccess_within within]
      exact iff_of_true rfl within
    · rw [parseAccess_outside within]
      exact iff_of_false Bool.false_ne_true within
  have exact : (∀ store format, parse p data = .ok store → tableFormat (byteAt data 4) = some format →
      store.ids.map AsciiString.toMemory =
        ((placesIn format data).filter fun place => storesId (idAt data place)).map fun place =>
          sliceAt data place.1 place.2) ↔ IdsExact data := by
    constructor
    · intro same signed newer format isFormat complete
      obtain ⟨header, isHeader⟩ := loadHeader_ok_iff.mpr ⟨signed, newer⟩
      obtain ⟨loaded, loads⟩ := (loadTable_ok_iff format data header).mpr complete
      obtain ⟨store, parses, sameIds⟩ := (parse_table isFormat isHeader).mpr ⟨loaded, loads, rfl⟩
      refine (ids_exact_iff isHeader loads).mp ?_
      rw [← sameIds]
      exact same store format parses isFormat
    · intro ids store format parses isFormat
      obtain ⟨header, isHeader, _⟩ := Fallible.bind_eq_ok.mp parses
      obtain ⟨signed, newer⟩ := loadHeader_ok_iff.mp ⟨header, isHeader⟩
      obtain ⟨loaded, loads, sameIds⟩ := (parse_table isFormat isHeader).mp ⟨store, parses, rfl⟩
      rw [← sameIds]
      exact (ids_exact_iff isHeader loads).mpr
        (ids signed newer format isFormat ((loadTable_ok_iff format data header).mp ⟨loaded, loads⟩))
  constructor
  · intro law
    refine ⟨inside.mp (access ▸ law.inside), exact.mp fun store format loads => ?_⟩
    exact law.exact store format (plain.trans loads)
  · rintro ⟨within, ids⟩
    refine ⟨access.symm ▸ inside.mpr within, fun store format loads => ?_⟩
    exact exact.mpr ids store format (plain.symm.trans loads)

/-! ## What is saved can be loaded -/

/-- A table that was written entry by entry: each id has its null at the end of its entry. -/
theorem table_encode (before : List Byte) (entries : List PermissionEntry) :
    TableWithin formatV4 (before ++ encodeEntries entries) entries.length before.length ∧
      ∀ place ∈ tablePlaces formatV4 (before ++ encodeEntries entries) entries.length before.length,
        ∃ text, Holds ((before ++ encodeEntries entries).drop place.1) text ∧ text.length + 1 = place.2 := by
  induction entries generalizing before with
  | nil => exact ⟨trivial, List.forall_mem_nil _⟩
  | cons entry entries ih =>
    have three : formatV4.headSize = 3 := rfl
    have small : entry.idSize < 2 ^ 8 := by
      have short := entry.storable.2
      rw [maxIdSize] at short
      rw [entry.idSize_eq]
      omega
    have whole : before ++ encodeEntries (entry :: entries) =
        (before ++ encodeEntry entry) ++ encodeEntries entries := by
      simp [encodeEntries]
    have parts : before ++ encodeEntries (entry :: entries) =
        (before ++ [entry.pMask, entry.dMask, BitVec.ofNat 8 entry.idSize]) ++
          (entry.id.toMemory ++ encodeEntries entries) := by
      simp [encodeEntries, encodeEntry]
    have size : (byteAt (before ++ encodeEntries (entry :: entries)) (before.length + formatV4.headSize - 1)).toNat =
        entry.idSize := by
      rw [parts, three, byteAt_append_left (by simp), byteAt_append_right (by omega),
        show before.length + 3 - 1 - before.length = 2 by omega]
      simpa [byteAt] using small
    have id : (before ++ encodeEntries (entry :: entries)).drop (before.length + formatV4.headSize) =
        entry.id.toMemory ++ encodeEntries entries := by
      rw [parts, three, List.drop_left' (by simp)]
    have holds : Holds ((before ++ encodeEntries (entry :: entries)).drop (before.length + formatV4.headSize))
        entry.id.chars := by
      rw [id]
      exact ⟨entry.id.holds_toMemory.plain, List.prefix_append _ _⟩
    have next : formatV4.next (before ++ encodeEntries (entry :: entries)) before.length =
        (before ++ encodeEntry entry).length := by
      rw [TableFormat.next, size, three, List.length_append, length_encodeEntry]
      omega
    have length : (before ++ encodeEntries (entry :: entries)).length =
        before.length + 3 + (entry.id.chars.length + 1) + (encodeEntries entries).length := by
      rw [parts]
      simp
      omega
    obtain ⟨within, places⟩ := ih (before ++ encodeEntry entry)
    rw [← whole] at within places
    constructor
    · intro _
      refine ⟨by omega, fun _ => ⟨⟨by omega, .inr (.inr ?_)⟩, ?_⟩⟩
      · exact holds.stored.subset (by simp)
      · rw [next]
        exact within
    · rw [List.length_cons, tablePlaces, next, size]
      refine List.forall_mem_cons.mpr ⟨⟨entry.id.chars, holds, ?_⟩, places⟩
      rw [entry.idSize_eq]

/-- The variable that `SaveToFlash` writes is read inside, and its ids are whole. -/
theorem laid_encode {store : PermissionStore} (fits : store.varSize ≤ maxSizeForVar) (createdOn savedOn : EfiTime) :
    ReadsWithin (store.encode createdOn savedOn) ∧ IdsExact (store.encode createdOn savedOn) := by
  have front := length_encodeFront store createdOn savedOn 4
  have count := numberOfEntries_encode front store.defaultDMask (entries_lt fits) (encodeEntries store.entries)
  have version : byteAt (store.encode createdOn savedOn) 4 = 4 := by
    rw [encode_eq, byteAt_encodeFront]
  have table := table_encode (store.encodeHeader createdOn savedOn) store.entries
  have size : 49 ≤ (store.encode createdOn savedOn).length := by
    rw [encode, List.length_append, length_encodeHeader]
    omega
  rw [← encode_eq] at count
  rw [← encode, length_encodeHeader] at table
  have isFormat : ∀ format, tableFormat (byteAt (store.encode createdOn savedOn) 4) = some format → format = formatV4 := by
    intro format is
    rw [version] at is
    exact (Option.some.inj is).symm
  refine ⟨⟨⟨by omega, fun _ => ⟨by omega, fun _ => by omega⟩⟩, fun _ _ => ⟨fun _ => by omega, fun format is => ?_⟩⟩, ?_⟩
  · rw [isFormat format is]
    refine ⟨size, ?_⟩
    rw [count]
    exact table.1
  · intro _ _ format is _ place mem _
    rw [isFormat format is, placesIn, count] at mem
    exact table.2 place mem

def recoveryStore : PermissionStore :=
  ((blankStore {}).addPermissionEntry (.ofString "Dfci.Recovery.Enable") Identity.signerOwner.bit 0).2

theorem loadLaw_recoveryStore : LoadLaw {} (recoveryStore.encode .zero .zero) := by
  have fits : recoveryStore.varSize ≤ maxSizeForVar := by decide +kernel
  refine (loadLaw_iff {} ?_).mpr (laid_encode fits .zero .zero)
  rw [length_encode]
  exact fits

def oneEntryVar (entry : List Byte) : List Byte :=
  [0x53, 0x42, 0x43, 0x5A, 4] ++ List.replicate 42 0 ++ [1, 0] ++ entry

/-- A variable of one byte; an id without a null; and an entry that is longer than its id. -/
theorem loadLaw_broken : ¬ LoadLaw {} [0x53] ∧ ¬ LoadLaw {} (oneEntryVar [1, 1, 2, 0x41, 0x42]) ∧
      ¬ LoadLaw {} (oneEntryVar [1, 1, 3, 0x41, 0, 0x42]) := by
  have evaluated : readFlashAccess {} (some ⟨internalVarAttributes, [0x53]⟩) = none ∧
      readFlashAccess {} (some ⟨internalVarAttributes, oneEntryVar [1, 1, 2, 0x41, 0x42]⟩) = none ∧
      (readFlash {} (some ⟨internalVarAttributes, oneEntryVar [1, 1, 3, 0x41, 0, 0x42]⟩)).toOption.map
        (fun store => store.ids.map AsciiString.toMemory) = some [[0x41, 0]] ∧
      byteAt (oneEntryVar [1, 1, 3, 0x41, 0, 0x42]) 4 = 4 ∧
      (((placesIn formatV4 (oneEntryVar [1, 1, 3, 0x41, 0, 0x42])).filter fun place =>
        storesId (idAt (oneEntryVar [1, 1, 3, 0x41, 0, 0x42]) place)).map fun place =>
          sliceAt (oneEntryVar [1, 1, 3, 0x41, 0, 0x42]) place.1 place.2) = [[0x41, 0, 0x42]] := by
    decide +kernel
  obtain ⟨tiny, unending, ids, version, slices⟩ := evaluated
  refine ⟨fun law => ?_, fun law => ?_, fun law => ?_⟩
  · have inside := law.inside
    rw [tiny] at inside
    cases inside
  · have inside := law.inside
    rw [unending] at inside
    cases inside
  · obtain ⟨store, isStore, isIds⟩ := Option.map_eq_some_iff.mp ids
    have exact := law.exact store formatV4 (Fallible.toOption_eq_some.mp isStore) (by rw [version]; rfl)
    rw [isIds, slices] at exact
    exact absurd exact (by decide)

end PermissionStore

end Dfci
