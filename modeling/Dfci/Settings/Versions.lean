import Dfci.Platform

/-! # The `_SMID` variable: the version of the settings

The variable is the signature (4 bytes), the header version (1), `Version` (4), `LowestSupportedVersion` (4),
`CreatedOn` (16) and `SavedOn` (16). -/

namespace Dfci

open ByteFields

/-- `DFCI_SETTING_INTERNAL_DATA` -/
structure InternalData where
  currentVersion : Nat
  lsv : Nat
  createdOn : EfiTime
  modified : Bool
  version_lt : currentVersion < 2 ^ 32
  lsv_le : lsv ≤ currentVersion

namespace InternalData

/-- `SIGNATURE_32('S', 'M', 'I', 'D')` -/
def varHeaderSig : Nat := 0x44494D53

/-- `SMID_InitInternalData` -/
def init (p : Platform) : InternalData where
  currentVersion := 0
  lsv := 0
  createdOn := if p.getTimeStatus.isError then .zero else p.getTime
  modified := true
  version_lt := newVersion_lt
  lsv_le := newLsv_le

def encode (data : InternalData) (savedOn : EfiTime) : List Byte :=
  littleEndian 4 varHeaderSig ++ ([1] ++ (littleEndian 4 data.currentVersion ++ (littleEndian 4 data.lsv ++
    (data.createdOn.raw ++ savedOn.raw))))

/-- `SMID_LoadFromFlash`. There is no transition from another header version. -/
def loadFromFlash (flash : Option Variable) : Except EfiStatus InternalData :=
  match flash with
  | none => .error .notFound
  | some var =>
    if var.data.length < 5 then
      .error .notFound
    else if var.attributes ≠ internalVarAttributes then
      .error .notFound
    else if fieldAt var.data 0 4 ≠ varHeaderSig then
      .error .compromisedData
    else if byteAt var.data 4 ≠ 1 then
      .error .unsupported
    else if var.data.length ≠ 45 then
      .error .compromisedData
    else if older : fieldAt var.data 5 4 < fieldAt var.data 9 4 then
      .error .compromisedData
    else
      .ok {
        currentVersion := fieldAt var.data 5 4
        lsv := fieldAt var.data 9 4
        createdOn := timeAt var.data 13
        modified := false
        version_lt := fieldAt_lt var.data 5 4
        lsv_le := Nat.le_of_not_lt older }

/-- `SMID_SaveToFlash`: the status and the variable. -/
def saveToFlash (p : Platform) (flash : Option Variable) (data : InternalData) : EfiStatus × Option Variable :=
  if !data.modified then
    (.success, flash)
  else
    match p.setVariable .settingsVersions (data.encode p.getTime) with
    | .success => (.success, some ⟨internalVarAttributes, data.encode p.getTime⟩)
    | .error code => (.error code, flash)

/-- `SMID_ResetInFlash` -/
def resetInFlash (p : Platform) (flash : Option Variable) : EfiStatus × Option Variable :=
  match p.deleteVariable .settingsVersions with
  | .success => (.success, none)
  -- if the variable does not exist the job has been done
  | .error code => (if EfiStatus.error code = .notFound then .success else .error code, flash)

/-- What `ApplyNewSettingsPacket` starts with: the stored data, or new data when none can be loaded. -/
def loadOrInit (p : Platform) (flash : Option Variable) : InternalData :=
  match loadFromFlash flash with
  | .error _ => init p
  | .ok data => data

/-- The `Version` and `LSV` that the variable stands for; zero when it cannot be loaded. -/
def persistedVersions (flash : Option Variable) : Nat × Nat :=
  match loadFromFlash flash with
  | .error _ => (0, 0)
  | .ok data => (data.currentVersion, data.lsv)

theorem persistedVersions_eq (p : Platform) (flash : Option Variable) :
    persistedVersions flash = ((loadOrInit p flash).currentVersion, (loadOrInit p flash).lsv) := by
  rw [persistedVersions, loadOrInit]
  split <;> rfl

/-- What was saved is what is loaded. -/
theorem loadFromFlash_encode (data : InternalData) (savedOn : EfiTime) :
    loadFromFlash (some ⟨internalVarAttributes, data.encode savedOn⟩) = .ok { data with modified := false } := by
  have size : (data.encode savedOn).length = 45 := by
    simp [encode, data.createdOn.size, savedOn.size]
  have signature : fieldAt (data.encode savedOn) 0 4 = varHeaderSig :=
    fieldAt_littleEndian (by decide) _
  have headerVersion : byteAt (data.encode savedOn) 4 = 1 := by
    rw [encode, byteAt_append_right (by simp)]
    simp
  have version : fieldAt (data.encode savedOn) 5 4 = data.currentVersion := by
    rw [encode, fieldAt_append_right (by simp), fieldAt_append_right (by simp)]
    simp only [length_littleEndian, List.length_singleton]
    exact fieldAt_littleEndian data.version_lt _
  have lsv : fieldAt (data.encode savedOn) 9 4 = data.lsv := by
    rw [encode, fieldAt_append_right (by simp), fieldAt_append_right (by simp), fieldAt_append_right (by simp)]
    simp only [length_littleEndian, List.length_singleton]
    exact fieldAt_littleEndian (Nat.lt_of_le_of_lt data.lsv_le data.version_lt) _
  have created : timeAt (data.encode savedOn) 13 = data.createdOn := by
    rw [encode, ← List.append_assoc, ← List.append_assoc, ← List.append_assoc]
    exact timeAt_append (by simp) data.createdOn
  have notOlder : ¬ data.currentVersion < data.lsv := Nat.not_lt.mpr data.lsv_le
  simp [loadFromFlash, size, signature, headerVersion, version, lsv, created, notOlder]

/-- Saving either leaves the variable, or replaces it by the data. -/
theorem persistedVersions_saveToFlash (p : Platform) (flash : Option Variable) (data : InternalData) :
    persistedVersions (data.saveToFlash p flash).2 =
      if data.modified ∧ (p.setVariable .settingsVersions (data.encode p.getTime)).isError = false then
        (data.currentVersion, data.lsv)
      else persistedVersions flash := by
  rw [saveToFlash]
  cases modified : data.modified with
  | false => simp
  | true =>
    cases outcome : p.setVariable .settingsVersions (data.encode p.getTime) with
    | success => simp [persistedVersions, loadFromFlash_encode]
    | error code => simp

end InternalData

end Dfci
