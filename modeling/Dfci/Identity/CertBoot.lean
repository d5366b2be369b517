import Dfci.Identity.CertInvariant

/-! # The certificate store across a boot

What is saved is loaded again, also from a variable of the first header version. At boot a variable that does not load
is replaced by one that does, with one exception: `FreeCertStore` retains the ZTD slot, and a load that stops there has
stored a size without a certificate in it. -/

namespace Dfci

open ByteFields

namespace CertStore

/-! ## The slots of a variable -/

def slotAt (data : List Byte) (bytePtr : Nat) (i : Fin 7) : CertDetails :=
  if sizeField data i = 0 then .empty
  else ⟨some (sliceAt data bytePtr (sizeField data i)), sizeField data i⟩

def slotsFrom (data : List Byte) : List (Fin 7) → Nat → List (Fin 7 × CertDetails)
  | [], _ => []
  | i :: indices, bytePtr =>
    (i, slotAt data bytePtr i) :: slotsFrom data indices (bytePtr + sizeField data i)

theorem map_fst_slotsFrom (data : List Byte) (indices : List (Fin 7)) (bytePtr : Nat) :
    (slotsFrom data indices bytePtr).map Prod.fst = indices := by
  induction indices generalizing bytePtr with
  | nil => rfl
  | cons i indices ih => simp [slotsFrom, ih]

/-- While the sizes fit, the loop takes one certificate after the other. -/
theorem loadSlots_of_fits {data : List Byte} {indices : List (Fin 7)} (rest : List (Fin 7)) {bytePtr varSize : Nat}
    (fits : (indices.map (sizeField data)).sum ≤ varSize) :
    let taken := (indices.map (sizeField data)).sum
    let later := loadSlots data rest (bytePtr + taken) (varSize - taken)
    loadSlots data (indices ++ rest) bytePtr varSize = (later.1, slotsFrom data indices bytePtr ++ later.2) := by
  induction indices generalizing bytePtr varSize with
  | nil => rfl
  | cons i indices ih =>
    rw [List.map_cons, List.sum_cons] at fits ⊢
    have taken : bytePtr + (sizeField data i + (indices.map (sizeField data)).sum) =
        bytePtr + sizeField data i + (indices.map (sizeField data)).sum := by omega
    have left : varSize - (sizeField data i + (indices.map (sizeField data)).sum) =
        varSize - sizeField data i - (indices.map (sizeField data)).sum := by omega
    have later := @ih (bytePtr + sizeField data i) (varSize - sizeField data i) (by omega)
    simp only [List.cons_append, loadSlots, slotsFrom, slotAt, taken, left]
    by_cases empty : sizeField data i = 0
    · rw [if_pos empty, if_pos empty]
      rw [empty] at later ⊢
      simp only [Nat.add_zero, Nat.sub_zero] at later ⊢
      rw [later]
    · rw [if_neg empty, if_neg empty, if_neg (by omega), later]

/-- A certificate that is longer than the rest of the variable ends the loop, with its size in the slot. -/
theorem loadSlots_of_short {data : List Byte} {i : Fin 7} (rest : List (Fin 7)) (bytePtr : Nat) {varSize : Nat}
    (short : varSize < sizeField data i) :
    loadSlots data (i :: rest) bytePtr varSize = (.compromisedData, [(i, ⟨none, sizeField data i⟩)]) := by
  have occupied : sizeField data i ≠ 0 := by omega
  simp only [loadSlots, if_neg occupied, if_pos short]

/-! ## Saving and loading -/

/-- The representation invariant of a store: every slot is empty or holds a certificate of a size that the variable
can record, and the bits are those of the slots, beside `DFCI_IDENTITY_LOCAL` that needs no certificate. -/
structure WellFormed (store : CertStore) : Prop where
  version_lt : store.version < 2 ^ 32
  lsv_lt : store.lsv < 2 ^ 32
  storable : ∀ i, (store.certs i).Storable
  represented : store.Represented
  noOther : store.populatedIdentities &&& ~~~Mask.keys = Identity.local.bit

theorem WellFormed.coherent {store : CertStore} (wellFormed : store.WellFormed)
    (owned : KeysOwned store.populatedIdentities) : store.Coherent := by
  have bits : ∀ identity i, Identity.toCertIndex identity = some i →
      (store.certs i).cert.isSome = store.populatedIdentities.has identity := by
    intro identity i isIndex
    rw [Bool.eq_iff_iff, wellFormed.represented identity i isIndex, iff_self_and]
    intro present
    obtain ⟨cert, isCert⟩ := Option.isSome_iff_exists.mp present
    exact ((wellFormed.storable i).sized cert isCert).2
  have bitwise : ∀ mask : Mask, mask &&& ~~~Mask.keys = Identity.local.bit →
      mask = Identity.local.bit ||| ((if mask.has .signerUser then Identity.signerUser.bit else 0) |||
        ((if mask.has .signerUser1 then Identity.signerUser1.bit else 0) |||
        ((if mask.has .signerUser2 then Identity.signerUser2.bit else 0) |||
        ((if mask.has .signerOwner then Identity.signerOwner.bit else 0) |||
          if mask.has .signerZtd then Identity.signerZtd.bit else 0)))) := by
    decide +kernel
  refine ⟨wellFormed.version_lt, wellFormed.lsv_lt, wellFormed.storable, ?_, owned⟩
  rw [identitiesIn_eq, keyBit, keyBit, keyBit, keyBit, keyBit, bits .signerUser 0 rfl, bits .signerUser1 1 rfl,
    bits .signerUser2 2 rfl, bits .signerOwner 3 rfl, bits .signerZtd 4 rfl]
  exact bitwise store.populatedIdentities wellFormed.noOther

/-- A variable as firmware with the first header version has written it: four certificates behind a header of 18
bytes, and no user certificate without an Owner certificate. -/
structure WrittenV1 (var : Variable) : Prop where
  attributes : var.attributes = internalVarAttributes
  signature : fieldAt var.data 0 8 = internalVarSignature
  headerVersion : byteAt var.data 8 = 1
  maxCerts : byteAt var.data 9 = 4
  packed : 18 + (layoutV1.indices.map (sizeField var.data)).sum ≤ var.data.length
  owned : ∀ i < certOwnerIndex, sizeField var.data i ≠ 0 → sizeField var.data certOwnerIndex ≠ 0

def certPtrV1 (data : List Byte) (i : Fin 7) : Nat :=
  18 + ((layoutV1.indices.filter (· < i)).map (sizeField data)).sum

theorem slotsFrom_layoutV1 (data : List Byte) : slotsFrom data layoutV1.indices 18 =
      layoutV1.indices.map fun i => (i, slotAt data (certPtrV1 data i) i) := by
  simp [slotsFrom, layoutV1, certPtrV1, Nat.add_assoc]

@[simp] theorem isSome_slotAt (data : List Byte) (bytePtr : Nat) (i : Fin 7) :
    (slotAt data bytePtr i).cert.isSome = decide (sizeField data i ≠ 0) := by
  rw [slotAt]
  split
  · rename_i empty
    simp [CertDetails.empty, empty]
  · rename_i occupied
    simp [occupied]

theorem WrittenV1.keysOwned {var : Variable} (written : WrittenV1 var) :
    KeysOwned (Identity.local.bit ||| slotBits (slotsFrom var.data layoutV1.indices 18)) := by
  have bitwise : ∀ user user1 user2 owner : Bool, (user → owner) → (user1 → owner) → (user2 → owner) →
      KeysOwned (Identity.local.bit ||| ((if user then Identity.signerUser.bit else 0) |||
        ((if user1 then Identity.signerUser1.bit else 0) ||| ((if user2 then Identity.signerUser2.bit else 0) |||
          ((if owner then Identity.signerOwner.bit else 0) ||| 0))))) := by
    unfold KeysOwned
    decide +kernel
  have owner : ∀ i < certOwnerIndex, decide (sizeField var.data i ≠ 0) = true →
      decide (sizeField var.data certOwnerIndex ≠ 0) = true := by
    intro i user occupied
    exact decide_eq_true (written.owned i user (of_decide_eq_true occupied))
  have bits := bitwise _ _ _ _ (owner 0 (by decide)) (owner 1 (by decide)) (owner 2 (by decide))
  rw [slotsFrom_layoutV1]
  simp only [slotBits, layoutV1, List.map_cons, List.map_nil, List.foldr_cons, List.foldr_nil, slotBit, isSome_slotAt]
  exact bits

theorem WrittenV1.loads {var : Variable} (written : WrittenV1 var) : ∃ loaded, Persisted (some var) loaded ∧
      ∀ i, loaded.certs i =
        if i ∈ layoutV1.indices then slotAt var.data (certPtrV1 var.data i) i else .empty := by
  have slots : loadSlots var.data layoutV1.indices layoutV1.packedAt (var.data.length - layoutV1.packedAt) =
      (.success, slotsFrom var.data layoutV1.indices 18) := by
    have packed := written.packed
    have fits : (layoutV1.indices.map (sizeField var.data)).sum ≤ var.data.length - 18 := by omega
    have found : loadSlots var.data (layoutV1.indices ++ []) 18 (var.data.length - 18) = _ := loadSlots_of_fits [] fits
    rw [List.append_nil] at found
    refine found.trans ?_
    simp [loadSlots]
  refine ⟨(slotsFrom var.data layoutV1.indices 18).foldl install .initial, ?_, ?_⟩
  · have owned : KeysOwned ((slotsFrom var.data layoutV1.indices 18).foldl install .initial).populatedIdentities := by
      rw [foldl_install_populated]
      exact written.keysOwned
    have known : ¬ (byteAt var.data 9).toNat ≠ layoutV1.indices.length := by
      rw [written.maxCerts]
      decide
    simp only [Persisted, loadProvisionedData, ne_eq, not_true, if_false, written.attributes, written.signature,
      written.headerVersion]
    simp only [loadLayout, if_neg known, loadCerts_eq, slots]
    exact checkOwner_of_keysOwned owned
  · intro i
    have distinct : ((slotsFrom var.data layoutV1.indices 18).map Prod.fst).Nodup := by
      rw [map_fst_slotsFrom]
      decide
    split
    · rename_i mem
      have found : (i, slotAt var.data (certPtrV1 var.data i) i) ∈ slotsFrom var.data layoutV1.indices 18 := by
        rw [slotsFrom_layoutV1]
        exact List.mem_map.mpr ⟨i, mem, rfl⟩
      exact foldl_install_slot _ distinct found
    · rename_i other
      rw [foldl_install_other _ (by rwa [map_fst_slotsFrom])]
      rfl

/-- A store that is saved comes back after a reset, and the certificates of a variable of the first header version
come back through the second. -/
theorem saveProvisionedData_roundTrip {p : Platform}
    (writes : ∀ data, p.setVariable .certificateStore data = .success) :
    (∀ (flash : Option Variable) (store : CertStore), store.WellFormed → KeysOwned store.populatedIdentities →
      let saved := saveProvisionedData p flash store
      saved.1 = .success ∧ loadProvisionedData saved.2 .initial = (.success, store)) ∧
    ∀ var, WrittenV1 var →
      let loaded := loadProvisionedData (some var) .initial
      let saved := saveProvisionedData p (some var) loaded.2
      let reloaded := loadProvisionedData saved.2 .initial
      loaded.1 = .success ∧ saved.1 = .success ∧ reloaded = (.success, loaded.2) ∧
        ∀ identity i, Identity.toCertIndex identity = some i →
          reloaded.2.provisionedCert identity =
            if i ∈ layoutV1.indices then (slotAt var.data (certPtrV1 var.data i) i).cert else none := by
  have saves : ∀ (flash : Option Variable) (store : CertStore), store.Coherent →
      saveProvisionedData p flash store = (.success, some ⟨internalVarAttributes, store.encode⟩) ∧
        loadProvisionedData (some ⟨internalVarAttributes, store.encode⟩) .initial = (.success, store) := by
    intro flash store coherent
    refine ⟨?_, coherent.persisted⟩
    simp only [saveProvisionedData, writes]
  refine ⟨fun flash store wellFormed owned => ?_, fun var written => ?_⟩
  · obtain ⟨saved, loads⟩ := saves flash store (wellFormed.coherent owned)
    simp only [saved, loads, and_self]
  · obtain ⟨loaded, persisted, certs⟩ := written.loads
    have isLoaded : loadProvisionedData (some var) .initial = (.success, loaded) := persisted
    have coherent := persisted.coherent
    obtain ⟨saved, loads⟩ := saves (some var) loaded coherent
    simp only [isLoaded, saved, loads, true_and]
    intro identity i isIndex
    rw [provisionedCert, isIndex, coherent.has_iff isIndex, Option.bind_some, certs i]
    split
    · rename_i known
      cases (slotAt var.data (certPtrV1 var.data i) i).cert <;> rfl
    · rfl

def ownerStore : CertStore where
  version := 2
  lsv := 1
  populatedIdentities := Identity.local.bit ||| Identity.signerOwner.bit
  certs := Function.update initial.certs certOwnerIndex ⟨some [1, 2, 3], 3⟩

theorem ownerStore_wellFormed : ownerStore.WellFormed where
  version_lt := by decide
  lsv_lt := by decide
  storable := by
    intro i
    by_cases isOwner : i = certOwnerIndex
    · rw [isOwner]
      exact ⟨(by rintro ⟨⟩), fun cert isCert => by cases isCert; decide, by decide⟩
    · simp only [ownerStore, Function.update_of_ne isOwner]
      exact .empty_slot
  represented := by
    intro identity i isIndex
    cases identity <;> cases isIndex <;> decide
  noOther := by decide

def ownerVariableV1 : Variable :=
  ⟨internalVarAttributes, littleEndian 8 internalVarSignature ++ [1, 4, 0, 0, 0, 0, 0, 0, 3, 0, 1, 2, 3]⟩

theorem ownerVariableV1_written : WrittenV1 ownerVariableV1 :=
  ⟨rfl, by decide, by decide, by decide, by decide, by decide⟩

theorem saveProvisionedData_roundTrip_owner :
    loadProvisionedData (saveProvisionedData keyedPlatform none ownerStore).2 .initial = (.success, ownerStore) ∧
      (loadProvisionedData (some ownerVariableV1) .initial).1 = .success :=
  have writes : ∀ data, keyedPlatform.setVariable .certificateStore data = .success := fun _ => rfl
  have owned : KeysOwned ownerStore.populatedIdentities := fun _ => rfl
  ⟨((saveProvisionedData_roundTrip writes).1 none ownerStore ownerStore_wellFormed owned).2,
    ((saveProvisionedData_roundTrip writes).2 _ ownerVariableV1_written).1⟩

/-! ## Starting over at boot -/

theorem populateInternalCertStore_success (p : Platform) {flash : Option Variable} {loaded : CertStore}
    (persisted : Persisted flash loaded) :
    populateInternalCertStore p flash .initial = (.success, loaded, flash) := by
  have loads : loadProvisionedData flash .initial = (.success, loaded) := persisted
  simp only [populateInternalCertStore, loads]

structure CutOff (details : CertDetails) : Prop where
  noCert : details.cert = none
  size_pos : 0 < details.certSize
  size_lt : details.certSize < 2 ^ 16

theorem StopsAtZtd.load {flash : Option Variable} (stops : StopsAtZtd flash) :
    let answer := loadProvisionedData flash .initial
    answer.1 = .compromisedData ∧ CutOff (answer.2.certs certZtdIndex) := by
  obtain ⟨⟨var, isVar, isV2, fits, ends⟩, same, isSame, attributes, signature, maxCerts⟩ := stops
  obtain rfl : same = var := Option.mem_unique isSame isVar
  obtain rfl : flash = some same := isVar
  have known : ¬ (byteAt same.data 9).toNat ≠ layoutV2.indices.length := by
    rw [maxCerts]
    decide
  have all : layoutV2.indices = [0, 1, 2, 3] ++ certZtdIndex :: [5, 6] := by decide
  have size := fieldAt_lt same.data (10 + 2 * certZtdIndex.val) 2
  let found : List (Fin 7 × CertDetails) :=
    slotsFrom same.data [0, 1, 2, 3] 32 ++ [(certZtdIndex, ⟨none, sizeField same.data certZtdIndex⟩)]
  have slots : loadSlots same.data layoutV2.indices layoutV2.packedAt (same.data.length - layoutV2.packedAt) =
      (.compromisedData, found) := by
    have short : same.data.length - 32 - packedBeforeZtd same.data < sizeField same.data certZtdIndex := by omega
    rw [all]
    refine (loadSlots_of_fits _ fits).trans ?_
    exact congrArg (fun later => (later.1, slotsFrom same.data [0, 1, 2, 3] 32 ++ later.2)) (loadSlots_of_short _ _ short)
  have loads : loadProvisionedData (some same) .initial = (.compromisedData, found.foldl install
      { initial with version := fieldAt same.data 24 4, lsv := fieldAt same.data 28 4 }) := by
    simp only [loadProvisionedData, ne_eq, not_true, if_false, attributes, signature, isV2]
    simp only [loadLayout, if_neg known, loadCerts_eq, slots]
    rfl
  have distinct : (found.map Prod.fst).Nodup := by
    rw [List.map_append, map_fst_slotsFrom]
    simp [certZtdIndex]
  rw [loads]
  refine ⟨rfl, ?_⟩
  rw [foldl_install_slot _ distinct (List.mem_append_right _ (List.mem_singleton_self _))]
  exact ⟨rfl, by simp only; omega, size⟩

/-- Starting over retains the size, and the variable it saves cannot be loaded. -/
theorem compromised_of_cutOff {store : CertStore} (memory : CertStore) (stopped : CutOff (store.certs certZtdIndex)) :
    (loadProvisionedData (some ⟨internalVarAttributes, store.cleared.encode⟩) memory).1 = .compromisedData := by
  have empty : ∀ i ≠ certZtdIndex, store.cleared.certs i = .empty := by
    intro i other
    simp only [cleared, freeCertStore, if_neg other]
  have cutOff : CutOff (store.cleared.certs certZtdIndex) := by
    simpa only [cleared, freeCertStore, if_true] using stopped
  generalize store.cleared = store at empty cutOff
  have all : List.finRange 7 = [0, 1, 2, 3] ++ certZtdIndex :: [5, 6] := by decide
  have storable : ∀ i ∈ [(0 : Fin 7), 1, 2, 3], (store.certs i).Storable := by
    intro i mem
    have other : ∀ i ∈ [(0 : Fin 7), 1, 2, 3], i ≠ certZtdIndex := by decide
    rw [empty i (other i mem)]
    exact .empty_slot
  have found := loadSlots_encode all storable
  have size := sizeField_encode store cutOff.size_lt
  have nothing : (packedCerts store.certs (certZtdIndex :: [5, 6])).length < sizeField store.encode certZtdIndex := by
    have packed : packedCerts store.certs (certZtdIndex :: [5, 6]) = [] := by
      simp [packedCerts, packedCert, cutOff.noCert, empty 5 (by decide), empty 6 (by decide), CertDetails.empty]
    rw [packed, size]
    exact cutOff.size_pos
  rw [loadSlots_of_short _ _ nothing] at found
  simp only [loadProvisionedData, ne_eq, not_true, if_false, store.fieldAt_encode_signature,
    store.byteAt_encode_headerVersion, loadLayout, store.byteAt_encode_maxCerts, loadCerts_eq, layoutV2, found]
  rfl

section

variable {p : Platform} (writes : ∀ data, p.setVariable .certificateStore data = .success)
include writes

/-- Any other error than another version leads to a new variable. -/
theorem populateInternalCertStore_starts_over {flash : Option Variable}
    (fails : (loadProvisionedData flash .initial).1.isError = true)
    (known : (loadProvisionedData flash .initial).1 ≠ .incompatibleVersion) :
    let cleared := (loadProvisionedData flash .initial).2.cleared
    let saved : Option Variable := some ⟨internalVarAttributes, cleared.encode⟩
    populateInternalCertStore p flash .initial =
      ((loadProvisionedData saved cleared).1, (loadProvisionedData saved cleared).2, saved) := by
  rw [populateInternalCertStore]
  generalize loadProvisionedData flash .initial = answer at fails known
  obtain ⟨status, loaded⟩ := answer
  cases status with
  | success => cases fails
  | error code =>
    simp only [if_neg known, initializeProvisionedData_eq flash loaded.freeCertStore (writes _), cleared_freeCertStore]

theorem populateInternalCertStore_persisted {flash : Option Variable} (whole : ¬ StopsAtZtd flash)
    (known : (loadProvisionedData flash .initial).1 ≠ .incompatibleVersion) :
    let booted := populateInternalCertStore p flash .initial
    booted.1 = .success ∧ Persisted booted.2.2 booted.2.1 := by
  cases fails : (loadProvisionedData flash .initial).1.isError with
  | false =>
    have persisted : Persisted flash (loadProvisionedData flash .initial).2 :=
      Prod.ext (EfiStatus.isError_eq_false.mp fails) rfl
    rw [populateInternalCertStore_success p persisted]
    exact ⟨rfl, persisted⟩
  | true =>
    have persisted := (clearable_loadProvisionedData whole).coherent.persisted
    rw [populateInternalCertStore_starts_over writes fails known]
    simp only [persisted.reloads]
    exact ⟨trivial, persisted⟩

end

/-- The store heals at boot: the next boot loads the variable, and finds the same certificates. -/
def HealsAtBoot (p : Platform) (flash : Option Variable) : Prop :=
  let booted := populateInternalCertStore p flash .initial
  booted.1 = .success ∧ (loadProvisionedData booted.2.2 .initial).1 = .success ∧
    (populateInternalCertStore p booted.2.2 .initial).2.1.certs = booted.2.1.certs

structure HasHeader (var : Variable) : Prop where
  signature : fieldAt var.data 0 8 = internalVarSignature
  version : byteAt var.data 8 = 1 ∧ 18 ≤ var.data.length ∨ byteAt var.data 8 = 2 ∧ 32 ≤ var.data.length

theorem HasHeader.compatible {flash : Option Variable} (header : ∀ var ∈ flash, HasHeader var) :
    (loadProvisionedData flash .initial).1 ≠ .incompatibleVersion := by
  cases flash with
  | none => rintro ⟨⟩
  | some var =>
    have version := (header var rfl).version
    simp only [loadProvisionedData]
    split
    · simp
    · split
      · simp
      · split
        · exact loadLayout_ne_incompatibleVersion _ _ _
        · exact loadLayout_ne_incompatibleVersion _ _ _
        · rename_i notV1 notV2
          rcases version with isV1 | isV2
          · exact absurd isV1.1 notV1
          · exact absurd isV2.1 notV2

theorem populateInternalCertStore_heals_iff {p : Platform}
    (writes : ∀ data, p.setVariable .certificateStore data = .success) {flash : Option Variable}
    (header : ∀ var ∈ flash, HasHeader var) : HealsAtBoot p flash ↔ ¬ StopsAtZtd flash := by
  have known := HasHeader.compatible header
  constructor
  · rintro ⟨booted, _⟩ stops
    obtain ⟨fails, cutOff⟩ := stops.load
    rw [populateInternalCertStore_starts_over writes (by rw [fails]; rfl) known] at booted
    simp only [compromised_of_cutOff _ cutOff] at booted
    cases booted
  · intro whole
    obtain ⟨booted, persisted⟩ := populateInternalCertStore_persisted writes whole known
    refine ⟨booted, ?_, ?_⟩
    · rw [show loadProvisionedData _ _ = _ from persisted]
    · rw [populateInternalCertStore_success p persisted]

def ownerCutOff : Variable :=
  ⟨internalVarAttributes, { initial with certs := Function.update initial.certs certOwnerIndex ⟨none, 1⟩ }.encode⟩

theorem populateInternalCertStore_heals_ownerCutOff :
    (loadProvisionedData (some ownerCutOff) .initial).1 = .compromisedData ∧
      HealsAtBoot keyedPlatform (some ownerCutOff) := by
  refine ⟨by decide +kernel, (populateInternalCertStore_heals_iff (fun _ => rfl) ?_).mpr ?_⟩
  · rintro _ ⟨⟩
    exact ⟨by decide +kernel, by decide +kernel⟩
  · rintro ⟨⟨_, ⟨⟩, cutOff⟩, _⟩
    revert cutOff
    decide +kernel

/-- Starting over saves the size of a ZTD certificate that was cut off, and fails again at this boot and at the next. -/
theorem cutOffZtd_not_healed :
    HasHeader Machine.cutOffVariable ∧ ¬ HealsAtBoot keyedPlatform (some Machine.cutOffVariable) := by
  refine ⟨⟨by decide +kernel, by decide +kernel⟩, ?_⟩
  rintro ⟨booted, _⟩
  revert booted
  decide +kernel

end CertStore

end Dfci
