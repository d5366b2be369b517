import Dfci.Identity.CertInvariant

/-! # The Owner's bit and the slots behind it

A user key is enrolled only while the Owner's bit is set. The bit can stay behind when a restore takes the Owner's
certificate away, so `Coherent` is too much to ask of a store over a whole boot. What holds throughout is that neither
the memory nor the variable has a key that the Owner's bit does not stand for. -/

namespace Dfci

open ByteFields

namespace CertStore

/-! ## What a load installs -/

def slotsAt (data : List Byte) (layout : VarLayout) : List (Fin 7 × CertDetails) :=
  if (byteAt data 9).toNat ≠ layout.indices.length then []
  else (loadSlots data layout.indices layout.packedAt (data.length - layout.packedAt)).2

/-- The slots that `LoadProvisionedData` takes from a variable, up to the one it stops at. -/
def slotsIn (flash : Option Variable) : List (Fin 7 × CertDetails) :=
  match flash with
  | none => []
  | some var =>
    if var.attributes ≠ internalVarAttributes then []
    else if fieldAt var.data 0 8 ≠ internalVarSignature then []
    else
      match byteAt var.data 8 with
      | 1 => slotsAt var.data layoutV1
      | 2 => slotsAt var.data layoutV2
      | _ => []

def slotIn (flash : Option Variable) (i : Fin 7) : Option CertDetails :=
  ((slotsIn flash).find? fun slot => slot.1 = i).map Prod.snd

inductive LoadLayout (flash : Option Variable) : Prop
  | unknown (empty : slotsIn flash = []) (keeps : ∀ memory, (loadProvisionedData flash memory).2 = memory)
  | known (data : List Byte) (layout : VarLayout) (version lsv : Nat) (isLayout : layout = layoutV1 ∨ layout = layoutV2)
      (slots : slotsIn flash = slotsAt data layout)
      (loads : ∀ memory, loadProvisionedData flash memory =
        loadLayout data layout { memory with version := version, lsv := lsv })

theorem loadLayout_cases (flash : Option Variable) : LoadLayout flash := by
  cases flash with
  | none => exact .unknown rfl fun _ => rfl
  | some var =>
    by_cases attributes : var.attributes ≠ internalVarAttributes
    · exact .unknown (by simp only [slotsIn, if_pos attributes])
        fun memory => by simp only [loadProvisionedData, if_pos attributes]
    · by_cases signature : fieldAt var.data 0 8 ≠ internalVarSignature
      · exact .unknown (by simp only [slotsIn, if_neg attributes, if_pos signature])
          fun memory => by simp only [loadProvisionedData, if_neg attributes, if_pos signature]
      · by_cases isV1 : byteAt var.data 8 = 1#8
        · exact .known var.data layoutV1 0 0 (.inl rfl)
            (by simp only [slotsIn, if_neg attributes, if_neg signature, isV1])
            fun memory => by simp only [loadProvisionedData, if_neg attributes, if_neg signature, isV1]
        · by_cases isV2 : byteAt var.data 8 = 2#8
          · exact .known var.data layoutV2 (fieldAt var.data 24 4) (fieldAt var.data 28 4) (.inr rfl)
              (by simp only [slotsIn, if_neg attributes, if_neg signature, isV2])
              fun memory => by simp only [loadProvisionedData, if_neg attributes, if_neg signature, isV2]
          · exact .unknown (by simp only [slotsIn, if_neg attributes, if_neg signature])
              fun memory => by simp only [loadProvisionedData, if_neg attributes, if_neg signature]

theorem loadLayout_slots (data : List Byte) (layout : VarLayout) (memory : CertStore) :
    let loaded := (slotsAt data layout).foldl install memory
    (loadLayout data layout memory).2 = loaded ∨ (loadLayout data layout memory).2 = (checkOwner loaded).2 := by
  rw [loadLayout, slotsAt]
  split
  · exact .inl rfl
  · rw [loadCerts_eq]
    cases (loadSlots data layout.indices layout.packedAt (data.length - layout.packedAt)).1 with
    | success => exact .inr rfl
    | error code => exact .inl rfl

/-- A load installs the slots of the variable, and may then miss the Owner. -/
theorem loadProvisionedData_slots (flash : Option Variable) (memory : CertStore) :
    ∃ version lsv, let loaded := (slotsIn flash).foldl install { memory with version := version, lsv := lsv }
      (loadProvisionedData flash memory).2 = loaded ∨ (loadProvisionedData flash memory).2 = (checkOwner loaded).2 := by
  cases loadLayout_cases flash with
  | unknown empty keeps =>
    rw [empty, keeps memory]
    exact ⟨memory.version, memory.lsv, .inl rfl⟩
  | known data layout version lsv isLayout slots loads =>
    rw [slots, loads memory]
    exact ⟨version, lsv, loadLayout_slots data layout _⟩

theorem loadSlots_initial (data : List Byte) (indices : List (Fin 7)) (bytePtr varSize : Nat) :
    (loadSlots data indices bytePtr varSize).2.map Prod.fst <+: indices := by
  induction indices generalizing bytePtr varSize with
  | nil => exact List.prefix_refl []
  | cons i indices ih =>
    simp only [loadSlots]
    split
    · exact List.prefix_cons_inj i |>.mpr (ih _ _)
    · split
      · exact ⟨indices, rfl⟩
      · exact List.prefix_cons_inj i |>.mpr (ih _ _)

theorem slotsIn_distinct (flash : Option Variable) : ((slotsIn flash).map Prod.fst).Nodup := by
  cases loadLayout_cases flash with
  | unknown empty =>
    rw [empty]
    exact List.nodup_nil
  | known data layout version lsv isLayout slots =>
    have distinct : layout.indices.Nodup := by
      rcases isLayout with rfl | rfl
      · decide
      · exact List.nodup_finRange 7
    rw [slots, slotsAt]
    split
    · exact List.nodup_nil
    · exact distinct.sublist (loadSlots_initial data layout.indices _ _).sublist

theorem slotIn_eq_some_iff {flash : Option Variable} {i : Fin 7} {details : CertDetails} :
    slotIn flash i = some details ↔ (i, details) ∈ slotsIn flash := by
  constructor
  · intro found
    obtain ⟨slot, isSlot, rfl⟩ := Option.map_eq_some_iff.mp found
    have isIndex : slot.1 = i := by simpa using List.find?_some isSlot
    rw [← isIndex]
    exact List.mem_of_find?_eq_some isSlot
  · intro mem
    cases found : (slotsIn flash).find? fun slot => slot.1 = i with
    | none => exact absurd (List.find?_eq_none.mp found _ mem) (by simp)
    | some slot =>
      have isIndex : slot.1 = i := by simpa using List.find?_some found
      -- a place has at most one slot
      have same : slot = (i, details) :=
        List.inj_on_of_nodup_map (slotsIn_distinct flash) (List.mem_of_find?_eq_some found) mem isIndex
      simp [slotIn, found, same]

theorem foldl_install_slotsIn (flash : Option Variable) (memory : CertStore) (i : Fin 7) :
    ((slotsIn flash).foldl install memory).certs i = (slotIn flash i).getD (memory.certs i) := by
  cases found : slotIn flash i with
  | none =>
    apply foldl_install_other
    intro mem
    obtain ⟨slot, isSlot, rfl⟩ := List.mem_map.mp mem
    rw [slotIn_eq_some_iff.mpr isSlot] at found
    cases found
  | some details =>
    exact foldl_install_slot _ (slotsIn_distinct flash) (slotIn_eq_some_iff.mp found)

@[simp] theorem checkOwner_populatedIdentities (store : CertStore) :
    (checkOwner store).2.populatedIdentities = store.populatedIdentities := by
  rw [checkOwner]
  split <;> rfl

theorem load_populatedIdentities (flash : Option Variable) (memory : CertStore) :
    (loadProvisionedData flash memory).2.populatedIdentities =
      memory.populatedIdentities ||| slotBits (slotsIn flash) := by
  obtain ⟨version, lsv, loads | loads⟩ := loadProvisionedData_slots flash memory
  · rw [loads, foldl_install_populated]
  · rw [loads, checkOwner_populatedIdentities, foldl_install_populated]

/-- Unless a user key misses the Owner, each place has the variable's slot or keeps its own. -/
theorem load_certs {flash : Option Variable} {memory : CertStore}
    (owned : KeysOwned (memory.populatedIdentities ||| slotBits (slotsIn flash))) (i : Fin 7) :
    (loadProvisionedData flash memory).2.certs i = (slotIn flash i).getD (memory.certs i) := by
  obtain ⟨version, lsv, loads | loads⟩ := loadProvisionedData_slots flash memory
  · rw [loads, foldl_install_slotsIn]
  · rw [loads, checkOwner_of_keysOwned (by rw [foldl_install_populated]; exact owned), foldl_install_slotsIn]

/-- The ZTD slot is loaded in any case. -/
theorem load_ztd (flash : Option Variable) (memory : CertStore) :
    (loadProvisionedData flash memory).2.certs certZtdIndex =
      (slotIn flash certZtdIndex).getD (memory.certs certZtdIndex) := by
  have checked : ∀ store, (checkOwner store).2.certs certZtdIndex = store.certs certZtdIndex := by
    intro store
    have notUser : isUserKeyIndex certZtdIndex = false := by decide
    rw [checkOwner]
    split
    · simp only [notUser, Bool.false_and, Bool.false_eq_true, if_false]
    · rfl
  obtain ⟨version, lsv, loads | loads⟩ := loadProvisionedData_slots flash memory
  · rw [loads, foldl_install_slotsIn]
  · rw [loads, checked, foldl_install_slotsIn]

/-- What a saved store gives back, up to the first slot that the variable cannot hold. -/
theorem slotIn_encode {store : CertStore} {last : Fin 7} (storable : ∀ i ≤ last, (store.certs i).Storable)
    {i : Fin 7} (within : i ≤ last) :
    slotIn (some ⟨internalVarAttributes, store.encode⟩) i = some (store.certs i) := by
  have all : ∀ last : Fin 7, List.finRange 7 =
      (List.finRange 7).filter (· ≤ last) ++ (List.finRange 7).filter (fun i => ¬ i ≤ last) := by decide
  have found := loadSlots_encode (all last) (fun i mem => storable i (by simpa using mem))
  have slots : slotsIn (some ⟨internalVarAttributes, store.encode⟩) =
      (loadSlots store.encode (List.finRange 7) 32 (store.encode.length - 32)).2 := by
    simp only [slotsIn, slotsAt, layoutV2, ne_eq, not_true, if_false, store.fieldAt_encode_signature,
      store.byteAt_encode_headerVersion, store.byteAt_encode_maxCerts]
    rfl
  rw [slotIn_eq_some_iff, slots, found]
  apply List.mem_append_left
  exact List.mem_map.mpr ⟨i, by simpa using within, rfl⟩

/-! ## The bits of the slots -/

theorem has_slotBits {slots : List (Fin 7 × CertDetails)} {identity : Identity} {i : Fin 7}
    (isIndex : identity.toCertIndex = some i) (has : (slotBits slots).has identity = true) :
    ∃ details, (i, details) ∈ slots ∧ details.cert.isSome = true := by
  induction slots with
  | nil =>
    rw [show slotBits [] = Mask.none from rfl, Mask.none_has] at has
    cases has
  | cons slot slots ih =>
    rw [show slotBits (slot :: slots) = slotBit slot ||| slotBits slots from rfl, Mask.has_or, Bool.or_eq_true] at has
    rcases has with first | later
    · rw [slotBit] at first
      split at first
      · rename_i present
        have isSlot : slot.1 = i := by
          have exhaustive : ∀ place : Fin 7, Mask.has ((certIndexToDfciIdentity place).elim 0 Identity.bit) identity = true →
              identity.toCertIndex = some place := by
            cases identity <;> decide
          have found := exhaustive slot.1 first
          rw [isIndex, Option.some.injEq] at found
          exact found.symm
        exact ⟨slot.2, by rw [← isSlot]; exact List.mem_cons_self, present⟩
      · rw [show (0 : Mask) = Mask.none from rfl, Mask.none_has] at first
        cases first
    · obtain ⟨details, mem, present⟩ := ih later
      exact ⟨details, List.mem_cons_of_mem _ mem, present⟩

/-- The keys of the users, and the Owner's, are the first four. -/
theorem exists_user {mask : Mask} (users : mask &&& Mask.userKeys ≠ 0) :
    ∃ identity i, Identity.toCertIndex identity = some i ∧ i ≤ certOwnerIndex ∧ mask.has identity = true := by
  have exhaustive : ∀ mask : Mask, mask &&& Mask.userKeys ≠ 0 →
      mask.has .signerUser = true ∨ mask.has .signerUser1 = true ∨ mask.has .signerUser2 = true := by decide +kernel
  rcases exhaustive mask users with user | user1 | user2
  · exact ⟨.signerUser, 0, rfl, by decide, user⟩
  · exact ⟨.signerUser1, 1, rfl, by decide, user1⟩
  · exact ⟨.signerUser2, 2, rfl, by decide, user2⟩

/-! ## The keys that the Owner's bit stands for -/

def Readable (flash : Option Variable) : Prop :=
  slotsIn flash = [] ∨ ∀ i ≤ certOwnerIndex, ∃ details, slotIn flash i = some details ∧ details.Storable

structure Keyed (certs : CertStore) (flash : Option Variable) : Prop where
  storable : ∀ i ≤ certOwnerIndex, (certs.certs i).Storable
  readable : Readable flash
  owned : KeysOwned certs.populatedIdentities
  held : ∀ i ≤ certOwnerIndex, (certs.certs i).cert.isSome = true →
    certs.populatedIdentities.has .signerOwner = true
  recorded : ∀ i ≤ certOwnerIndex, ∀ details, slotIn flash i = some details → details.cert.isSome = true →
    certs.populatedIdentities.has .signerOwner = true

theorem Readable.storable {flash : Option Variable} (readable : Readable flash) {i : Fin 7}
    (isKey : i ≤ certOwnerIndex) {details : CertDetails} (found : slotIn flash i = some details) :
    details.Storable := by
  rcases readable with empty | whole
  · rw [slotIn, empty] at found
    cases found
  · obtain ⟨same, isSame, storable⟩ := whole i isKey
    rw [found, Option.some.injEq] at isSame
    exact isSame ▸ storable

section

variable {certs : CertStore} {flash : Option Variable}

theorem Keyed.slotBits_owner (keyed : Keyed certs flash) {identity : Identity} {i : Fin 7}
    (isIndex : identity.toCertIndex = some i) (isKey : i ≤ certOwnerIndex)
    (has : (slotBits (slotsIn flash)).has identity = true) : certs.populatedIdentities.has .signerOwner = true := by
  obtain ⟨details, mem, present⟩ := has_slotBits isIndex has
  exact keyed.recorded i isKey details (slotIn_eq_some_iff.mpr mem) present

theorem Keyed.loadOwned (keyed : Keyed certs flash) :
    KeysOwned (certs.populatedIdentities ||| slotBits (slotsIn flash)) := by
  intro users
  rw [Mask.has_or, Bool.or_eq_true]
  rw [Ne, Mask.or_and_eq_zero, not_and_or] at users
  rcases users with inMemory | inFlash
  · exact .inl (keyed.owned inMemory)
  · obtain ⟨identity, i, isIndex, isKey, has⟩ := exists_user inFlash
    exact .inl (keyed.slotBits_owner isIndex isKey has)

/-- A restore does not bring back an Owner's bit. -/
theorem Keyed.load_hasOwner (keyed : Keyed certs flash) :
    (loadProvisionedData flash certs).2.populatedIdentities.has .signerOwner =
      certs.populatedIdentities.has .signerOwner := by
  have isIndex : Identity.toCertIndex .signerOwner = some certOwnerIndex := rfl
  rw [load_populatedIdentities, Mask.has_or]
  cases inMemory : certs.populatedIdentities.has .signerOwner with
  | true => rfl
  | false =>
    rw [Bool.false_or, Bool.eq_false_iff]
    intro has
    rw [keyed.slotBits_owner isIndex (le_refl _) has] at inMemory
    cases inMemory

theorem Keyed.load (keyed : Keyed certs flash) : Keyed (loadProvisionedData flash certs).2 flash := by
  have slots := load_certs keyed.loadOwned
  have hasOwner := keyed.load_hasOwner
  refine ⟨?_, keyed.readable, ?_, ?_, ?_⟩
  · intro i isKey
    rw [slots]
    cases found : slotIn flash i with
    | none => exact keyed.storable i isKey
    | some details => exact keyed.readable.storable isKey found
  · rw [load_populatedIdentities]
    exact keyed.loadOwned
  · intro i isKey present
    rw [hasOwner]
    rw [slots] at present
    cases found : slotIn flash i with
    | none =>
      rw [found] at present
      exact keyed.held i isKey present
    | some details =>
      rw [found] at present
      exact keyed.recorded i isKey details found present
  · intro i isKey details found present
    rw [hasOwner]
    exact keyed.recorded i isKey details found present

theorem readable_encode (storable : ∀ i ≤ certOwnerIndex, (certs.certs i).Storable) :
    Readable (some ⟨internalVarAttributes, certs.encode⟩) :=
  .inr fun i isKey => ⟨certs.certs i, slotIn_encode storable isKey, storable i isKey⟩

theorem Keyed.encode (keyed : Keyed certs flash) : Keyed certs (some ⟨internalVarAttributes, certs.encode⟩) where
  storable := keyed.storable
  readable := readable_encode keyed.storable
  owned := keyed.owned
  held := keyed.held
  recorded := by
    intro i isKey details found
    rw [slotIn_encode keyed.storable isKey, Option.some.injEq] at found
    rw [← found]
    exact keyed.held i isKey

/-- Another ZTD slot, and other bits than the Owner's. -/
theorem Keyed.change (keyed : Keyed certs flash) {changed : CertStore}
    (others : ∀ i ≤ certOwnerIndex, changed.certs i = certs.certs i) (owned : KeysOwned changed.populatedIdentities)
    (owner : changed.populatedIdentities.has .signerOwner = certs.populatedIdentities.has .signerOwner) :
    Keyed changed flash where
  storable := by
    intro i isKey
    rw [others i isKey]
    exact keyed.storable i isKey
  readable := keyed.readable
  owned := owned
  held := by
    intro i isKey
    rw [others i isKey, owner]
    exact keyed.held i isKey
  recorded := by
    intro i isKey
    rw [owner]
    exact keyed.recorded i isKey

theorem setCert_ztd (store : CertStore) (details : CertDetails) {i : Fin 7} (isKey : i ≤ certOwnerIndex) :
    (store.setCert certZtdIndex details).certs i = store.certs i := by
  have differs : i ≠ certZtdIndex := by
    rintro rfl
    exact absurd isKey (by decide)
  exact Function.update_of_ne differs _ _

/-! ## What a packet does -/

/-- The slot that an approved packet leaves is one that the variable can hold. -/
theorem provision_storable {identity : Identity} {i other : Fin 7} {data : Packet}
    (valid : validateIdentityPacket data = .success) (storable : (certs.certs other).Storable) :
    ((certs.provision identity i data).certs other).Storable := by
  have empty : CertDetails.Storable .empty := .empty_slot
  have removed : ((if (certs.certs i).cert.isSome then
      { certs.setCert i .empty with populatedIdentities := certs.populatedIdentities &&& ~~~identity.bit }
      else certs).certs other).Storable := by
    split
    · by_cases same : other = i
      · subst same
        simp only [setCert, Function.update_self]
        exact empty
      · simp only [setCert, Function.update_of_ne same]
        exact storable
    · exact storable
  simp only [provision]
  split
  · by_cases same : other = i
    · subst same
      simp only [setCert, Function.update_self]
      by_cases enroll : data.payloadSize = 0
      · rw [enroll]
        exact empty
      · have carries := carriesCert_of_validateIdentityPacket valid enroll
        rw [if_pos carries.positive]
        refine ⟨(by simp), ?_, carries.fits⟩
        rintro _ ⟨⟩
        exact ⟨carries.length, carries.positive⟩
    · simp only [setCert, Function.update_of_ne same]
      exact removed
  · exact removed

/-- After an approved packet, other than the Owner's unenroll, the Owner's bit is set. -/
theorem provision_hasOwner {identity : Identity} {i : Fin 7} {data : Packet}
    (valid : validateIdentityPacket data = .success)
    (owned : identity = .signerOwner ∨ certs.populatedIdentities.has .signerOwner = true)
    (notCleared : ¬ (data.payloadSize = 0 ∧ identity = .signerOwner)) :
    (certs.provision identity i data).populatedIdentities.has .signerOwner = true := by
  by_cases isOwner : identity = .signerOwner
  · subst isOwner
    have enroll : data.payloadSize ≠ 0 := fun empty => notCleared ⟨empty, rfl⟩
    have carries := carriesCert_of_validateIdentityPacket valid enroll
    rw [provision_eq certs .signerOwner i carries]
    exact Mask.has_or_bit _ _
  · have owner := owned.resolve_left isOwner
    have stays : ∀ mask : Mask, mask.has .signerOwner = true → (mask &&& ~~~identity.bit).has .signerOwner = true := by
      cases identity <;> first | exact absurd rfl isOwner | decide +kernel
    simp only [provision]
    split <;> split
    · rw [Mask.has_or, stays _ owner, Bool.true_or]
    · rw [Mask.has_or, owner, Bool.true_or]
    · exact stays _ owner
    · exact owner

theorem Keyed.provision (keyed : Keyed certs flash) {identity : Identity} {i : Fin 7} {data : Packet}
    (valid : validateIdentityPacket data = .success)
    (owned : identity = .signerOwner ∨ certs.populatedIdentities.has .signerOwner = true)
    (notCleared : ¬ (data.payloadSize = 0 ∧ identity = .signerOwner)) :
    Keyed (certs.provision identity i data) flash := by
  have hasOwner : (certs.provision identity i data).populatedIdentities.has .signerOwner = true :=
    provision_hasOwner valid owned notCleared
  exact ⟨fun other isKey => provision_storable valid (keyed.storable other isKey), keyed.readable, fun _ => hasOwner,
    fun _ _ _ => hasOwner, fun _ _ _ _ _ => hasOwner⟩

end

/-! ## Starting over, and booting -/

theorem cleared_certs {certs : CertStore} {i : Fin 7} (isKey : i ≤ certOwnerIndex) :
    certs.cleared.certs i = .empty := by
  have differs : i ≠ certZtdIndex := by
    rintro rfl
    exact absurd isKey (by decide)
  exact if_neg differs

/-- A store with no certificate for one of the first four keys. -/
theorem Keyed.ofEmpty {certs : CertStore} {flash : Option Variable}
    (empty : ∀ i ≤ certOwnerIndex, certs.certs i = .empty) (owned : KeysOwned certs.populatedIdentities)
    (isFlash : slotsIn flash = [] ∨ flash = some ⟨internalVarAttributes, certs.encode⟩) : Keyed certs flash := by
  have storable : ∀ i ≤ certOwnerIndex, (certs.certs i).Storable := by
    intro i isKey
    rw [empty i isKey]
    exact .empty_slot
  have absent : ∀ i ≤ certOwnerIndex, ¬ (certs.certs i).cert.isSome = true := by
    intro i isKey
    rw [empty i isKey]
    rintro ⟨⟩
  rcases isFlash with none | rfl
  · refine ⟨storable, .inl none, owned, fun i isKey present => absurd present (absent i isKey), ?_⟩
    intro i isKey details found
    rw [slotIn, none] at found
    cases found
  · refine ⟨storable, readable_encode storable, owned, fun i isKey present => absurd present (absent i isKey), ?_⟩
    intro i isKey details found present
    rw [slotIn_encode storable isKey, Option.some.injEq] at found
    rw [← found] at present
    exact absurd present (absent i isKey)

theorem cleared_owned (certs : CertStore) : KeysOwned certs.cleared.populatedIdentities := by
  intro users
  rw [cleared] at users
  simp only at users
  split at users <;> exact absurd rfl users

theorem Keyed.cleared (certs : CertStore) :
    Keyed certs.cleared (some ⟨internalVarAttributes, certs.cleared.encode⟩) :=
  .ofEmpty (fun _ isKey => cleared_certs isKey) (cleared_owned certs) (.inr rfl)

theorem Persisted.readable {flash : Option Variable} {stored : CertStore} (persisted : Persisted flash stored) :
    Readable flash := by
  have known : ∀ (layout : VarLayout), layout = layoutV1 ∨ layout = layoutV2 →
      ∀ i ≤ certOwnerIndex, i ∈ layout.indices := by
    rintro _ (rfl | rfl) <;> decide
  cases loadLayout_cases flash with
  | unknown empty => exact .inl empty
  | known data layout version lsv isLayout slots loads =>
    have success : (loadLayout data layout { CertStore.initial with version := version, lsv := lsv }).1 = .success := by
      rw [← loads, persisted]
    refine .inr fun i isKey => ?_
    rw [loadLayout] at success
    split at success
    · cases success
    · rename_i counted
      rw [loadCerts_eq] at success
      cases found : (loadSlots data layout.indices layout.packedAt (data.length - layout.packedAt)).1 with
      | error code =>
        rw [found] at success
        cases success
      | success =>
        have mem := known layout isLayout i isKey
        rw [← loadSlots_indices found] at mem
        obtain ⟨slot, isSlot, rfl⟩ := List.mem_map.mp mem
        refine ⟨slot.2, ?_, loadSlots_storable (by omega) found slot isSlot⟩
        rw [slotIn_eq_some_iff, slots, slotsAt, if_neg counted]
        exact isSlot

theorem Coherent.held {store : CertStore} (coherent : store.Coherent) {i : Fin 7} (isKey : i ≤ certOwnerIndex)
    (present : (store.certs i).cert.isSome = true) : store.populatedIdentities.has .signerOwner = true := by
  have user : ∀ identity, Identity.toCertIndex identity = some i → Mask.userKeys.has identity = true →
      store.populatedIdentities.has .signerOwner = true := by
    intro identity isIndex isUser
    rw [← coherent.has_iff isIndex] at present
    apply coherent.owned
    have exhaustive : ∀ mask : Mask, mask.has identity = true → mask &&& Mask.userKeys ≠ 0 := by
      cases identity <;> first | exact absurd isUser (by decide) | decide +kernel
    exact exhaustive _ present
  have places : ∀ place : Fin 7, place ≤ certOwnerIndex → place = 0 ∨ place = 1 ∨ place = 2 ∨ place = 3 := by decide
  have owner : Identity.toCertIndex .signerOwner = some certOwnerIndex := rfl
  rcases places i isKey with rfl | rfl | rfl | rfl
  · exact user .signerUser rfl rfl
  · exact user .signerUser1 rfl rfl
  · exact user .signerUser2 rfl rfl
  · rw [coherent.has_iff owner]
    exact present

theorem Persisted.keyed {flash : Option Variable} {stored : CertStore} (persisted : Persisted flash stored) :
    Keyed stored flash := by
  have coherent := persisted.coherent
  refine ⟨fun i _ => coherent.storable i, persisted.readable, coherent.owned,
    fun i isKey => coherent.held isKey, ?_⟩
  intro i isKey details found present
  have populated := load_populatedIdentities flash .initial
  have slots : (loadProvisionedData flash .initial).2.certs i =
      (slotIn flash i).getD (CertStore.initial.certs i) := by
    apply load_certs
    rw [← populated, persisted]
    exact coherent.owned
  rw [persisted, found] at slots
  apply coherent.held isKey
  rw [slots]
  exact present

theorem Inert.slotsIn {flash : Option Variable} (inert : Inert flash) : slotsIn flash = [] := by
  cases loadLayout_cases flash with
  | unknown empty => exact empty
  | known data layout version lsv isLayout slots loads =>
    have fails : (loadProvisionedData flash .initial).1 = .incompatibleVersion := by rw [inert]
    rw [loads] at fails
    exact absurd fails (loadLayout_ne_incompatibleVersion _ _ _)

/-- What the platform asks for at a boot. In manufacturing mode it opts in. -/
def ZeroTouch.requested (zeroTouch : ZeroTouch) : ZeroTouchState :=
  if zeroTouch.state = .inactive ∧ zeroTouch.manufacturingMode then .optIn else zeroTouch.state

def withZtd (certs : CertStore) (cert : List Byte) : CertStore :=
  { certs.setCert certZtdIndex ⟨some cert, cert.length⟩ with
    populatedIdentities := certs.populatedIdentities ||| Identity.signerZtd.bit }

def withoutZtd (certs : CertStore) : CertStore :=
  { certs.setCert certZtdIndex .empty with
    populatedIdentities := certs.populatedIdentities &&& ~~~Identity.signerZtd.bit }

inductive ZeroTouchEffect (zeroTouch : ZeroTouch) (flash : Option Variable) (certs : CertStore) :
    CertStore × Option Variable → Prop
  | kept : ZeroTouchEffect zeroTouch flash certs (certs, flash)
  | installed (cert : List Byte) (asks : ZeroTouch.requested zeroTouch = .optIn)
      (isCert : zeroTouch.certificate = .ok cert) :
      ZeroTouchEffect zeroTouch flash certs
        (certs.withZtd cert, some ⟨internalVarAttributes, (certs.withZtd cert).encode⟩)
  | removed (asks : ZeroTouch.requested zeroTouch = .optOut) :
      ZeroTouchEffect zeroTouch flash certs (certs.withoutZtd, some ⟨internalVarAttributes, certs.withoutZtd.encode⟩)

theorem KeysOwned.orZtd {mask : Mask} (owned : KeysOwned mask) : KeysOwned (mask ||| Identity.signerZtd.bit) :=
  owned.or fun users => absurd rfl users

theorem has_orZtd (mask : Mask) : (mask ||| Identity.signerZtd.bit).has .signerOwner = mask.has .signerOwner := by
  rw [Mask.has_or]
  exact Bool.or_false _

theorem has_clearZtd (mask : Mask) : (mask &&& ~~~Identity.signerZtd.bit).has .signerOwner = mask.has .signerOwner := by
  have exhaustive : ∀ mask : Mask, (mask &&& ~~~Identity.signerZtd.bit).has .signerOwner = mask.has .signerOwner := by
    decide +kernel
  exact exhaustive mask

theorem withZtd_certs (certs : CertStore) (cert : List Byte) {i : Fin 7} (isKey : i ≤ certOwnerIndex) :
    (certs.withZtd cert).certs i = certs.certs i :=
  setCert_ztd certs ⟨some cert, cert.length⟩ isKey

theorem withoutZtd_certs (certs : CertStore) {i : Fin 7} (isKey : i ≤ certOwnerIndex) :
    certs.withoutZtd.certs i = certs.certs i :=
  setCert_ztd certs .empty isKey

theorem Keyed.withZtd {certs : CertStore} {flash : Option Variable} (keyed : Keyed certs flash) (cert : List Byte) :
    Keyed (certs.withZtd cert) flash :=
  keyed.change (fun _ isKey => withZtd_certs certs cert isKey) keyed.owned.orZtd (has_orZtd _)

theorem Keyed.withoutZtd {certs : CertStore} {flash : Option Variable} (keyed : Keyed certs flash) :
    Keyed certs.withoutZtd flash :=
  keyed.change (fun _ isKey => withoutZtd_certs certs isKey) (keyed.owned.clear nofun) (has_clearZtd _)

section

variable {p : Platform} (writes : ∀ data, p.setVariable .certificateStore data = .success)
include writes

theorem keyed_populateInternalCertStore (flash : Option Variable) :
    let populated := populateInternalCertStore p flash .initial
    Keyed populated.2.1 populated.2.2 := by
  have effect := populateInternalCertStore_effect writes flash
  simp only at effect ⊢
  generalize (populateInternalCertStore p flash .initial).2.1 = certs at effect ⊢
  generalize (populateInternalCertStore p flash .initial).2.2 = after at effect ⊢
  cases effect with
  | loaded persisted => exact persisted.keyed
  | inert inert => exact .ofEmpty (fun i _ => ite_self _) (fun users => absurd rfl users) (.inl inert.slotsIn)
  | cleared loaded => exact (Keyed.cleared loaded).load

/-- The Zero Touch handling keeps all or changes the ZTD slot, as the platform asks for, and saves that. -/
theorem zeroTouch_effect (zeroTouch : ZeroTouch) (flash : Option Variable) (certs : CertStore) :
    ZeroTouchEffect zeroTouch flash certs (certs.zeroTouch p zeroTouch flash) := by
  simp only [CertStore.zeroTouch, saveProvisionedData, writes]
  split
  · exact .kept
  · rename_i asks
    split
    · split
      · exact .kept
      · rename_i cert isCert
        exact .installed cert asks isCert
    · exact .kept
  · rename_i asks
    split
    · exact .removed asks
    · exact .kept

end

end CertStore

end Dfci
