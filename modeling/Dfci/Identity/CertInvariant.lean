import Dfci.Identity.Effect
import Dfci.System

/-! # The certificate store and its mask of identities

`PopulatedIdentities` and the slots are written side by side. What keeps them together is that the store in memory is
coherent, and that the variable is one that loads as a coherent store. -/

namespace Dfci

open ByteFields

namespace CertStore

/-- For each key, its bit is set exactly when its slot holds a certificate. -/
def Represented (store : CertStore) : Prop :=
  ∀ identity i, Identity.toCertIndex identity = some i →
    (store.populatedIdentities.has identity = true ↔ (store.certs i).cert.isSome = true ∧ 0 < (store.certs i).certSize)

theorem Coherent.has_iff {store : CertStore} (coherent : store.Coherent) {identity : Identity} {i : Fin 7}
    (isIndex : identity.toCertIndex = some i) :
    store.populatedIdentities.has identity = (store.certs i).cert.isSome := by
  have notLocal : Mask.has Identity.local.bit identity = false := by
    cases identity <;> first | rfl | cases isIndex
  rw [coherent.populated, Mask.has_or, notLocal, Bool.false_or, has_identitiesIn isIndex]

theorem Coherent.represented {store : CertStore} (coherent : store.Coherent) : store.Represented := by
  intro identity i isIndex
  rw [coherent.has_iff isIndex]
  constructor
  · intro present
    obtain ⟨cert, isCert⟩ := Option.isSome_iff_exists.mp present
    exact ⟨present, ((coherent.storable i).sized cert isCert).2⟩
  · exact And.left

/-! ## Changing one slot -/

theorem Mask.or_local_clear (mask : Mask) {identity : Identity} {i : Fin 7}
    (isIndex : identity.toCertIndex = some i) :
    (Identity.local.bit ||| mask) &&& ~~~identity.bit = Identity.local.bit ||| (mask &&& ~~~identity.bit ||| 0) := by
  revert mask
  cases identity <;> cases isIndex <;> decide +kernel

theorem KeysOwned.clear {mask : Mask} (owned : KeysOwned mask) {identity : Identity} (notOwner : identity ≠ .signerOwner) :
    KeysOwned (mask &&& ~~~identity.bit) := by
  have exhaustive : ∀ mask : Mask, (mask &&& Mask.userKeys ≠ 0 → mask.has .signerOwner = true) →
      (mask &&& ~~~identity.bit) &&& Mask.userKeys ≠ 0 → (mask &&& ~~~identity.bit).has .signerOwner = true := by
    cases identity <;> first | exact absurd rfl notOwner | decide +kernel
  exact exhaustive mask owned

/-- An emptied slot, without the key's bit. The Owner's slot is emptied only with all others. -/
theorem Coherent.remove {store : CertStore} (coherent : store.Coherent) {identity : Identity} {i : Fin 7}
    (isIndex : identity.toCertIndex = some i) (notOwner : identity ≠ .signerOwner) :
    Coherent { store.setCert i .empty with
      populatedIdentities := store.populatedIdentities &&& ~~~identity.bit } where
  version_lt := coherent.version_lt
  lsv_lt := coherent.lsv_lt
  storable := by
    intro other
    by_cases same : other = i
    · subst same
      simp only [setCert, Function.update_self]
      exact .empty_slot
    · simp only [setCert, Function.update_of_ne same]
      exact coherent.storable other
  populated := by
    have bits : identitiesIn (store.setCert i .empty).certs = identitiesIn store.certs &&& ~~~identity.bit ||| 0 :=
      identitiesIn_update isIndex _ _
    simp only [bits]
    rw [coherent.populated, Mask.or_local_clear _ isIndex]
  owned := coherent.owned.clear notOwner

/-- An approved packet with a certificate, or without one for another key than the Owner's. -/
theorem Coherent.provision {store : CertStore} (coherent : store.Coherent) {identity : Identity} {i : Fin 7}
    {data : Packet} (isIndex : identity.toCertIndex = some i)
    (valid : validateIdentityPacket data = .success) (decoded : data.payloadSize = 0 → data.payload = none)
    (owned : identity = .signerOwner ∨ store.populatedIdentities.has .signerOwner = true)
    (notCleared : ¬ (data.payloadSize = 0 ∧ identity = .signerOwner)) :
    (store.provision identity i data).Coherent := by
  by_cases enroll : data.payloadSize = 0
  · have removes : store.provision identity i data =
        if (store.certs i).cert.isSome then
          { store.setCert i .empty with populatedIdentities := store.populatedIdentities &&& ~~~identity.bit }
        else store := by
      simp only [CertStore.provision, decoded enroll, Option.isSome_none, Bool.false_eq_true, if_false]
    rw [removes]
    split
    · exact coherent.remove isIndex fun owner => notCleared ⟨enroll, owner⟩
    · exact coherent
  · have carries := carriesCert_of_validateIdentityPacket valid enroll
    rw [provision_eq store identity i carries]
    refine coherent.install isIndex ⟨(by simp), ?_, carries.fits⟩ ?_
    · rintro _ ⟨⟩
      exact ⟨carries.length, carries.positive⟩
    · intro isUser
      rcases owned with rfl | owner
      · cases isUser
      · exact owner

/-! ## Starting over -/

/-- The store that `InitializeProvisionedData` leaves: the ZTD slot as it was, and no other. -/
def cleared (store : CertStore) : CertStore :=
  { store.freeCertStore with
    populatedIdentities :=
      if (store.certs certZtdIndex).certSize ≠ 0 then Identity.local.bit ||| Identity.signerZtd.bit
      else Identity.local.bit }

theorem initializeProvisionedData_eq {p : Platform} (flash : Option Variable) (store : CertStore)
    (writes : p.setVariable .certificateStore store.cleared.encode = .success) :
    initializeProvisionedData p flash store =
      (.success, store.cleared, some ⟨internalVarAttributes, store.cleared.encode⟩) := by
  change ((saveProvisionedData p _ store.cleared).1, store.cleared, (saveProvisionedData p _ store.cleared).2) = _
  simp only [saveProvisionedData, writes]

theorem cleared_freeCertStore (store : CertStore) : store.freeCertStore.cleared = store.cleared := by
  ext1
  · rfl
  · rfl
  · rfl
  · funext i
    simp only [cleared, freeCertStore]
    split <;> rfl

structure Clearable (store : CertStore) : Prop where
  version_lt : store.version < 2 ^ 32
  lsv_lt : store.lsv < 2 ^ 32
  ztd : (store.certs certZtdIndex).Storable

theorem Coherent.clearable {store : CertStore} (coherent : store.Coherent) : store.Clearable :=
  ⟨coherent.version_lt, coherent.lsv_lt, coherent.storable _⟩

theorem Clearable.coherent {store : CertStore} (clearable : store.Clearable) : store.cleared.Coherent := by
  have ztdBit : keyBit .signerZtd (store.certs certZtdIndex) =
      if (store.certs certZtdIndex).certSize ≠ 0 then Identity.signerZtd.bit else 0 := by
    cases present : (store.certs certZtdIndex).cert with
    | none => simp [keyBit, present, clearable.ztd.empty present]
    | some cert =>
      have positive := (clearable.ztd.sized cert present).2
      simp [keyBit, present, Nat.ne_of_gt positive]
  have identities : identitiesIn store.cleared.certs = keyBit .signerZtd (store.certs certZtdIndex) := by
    rw [identitiesIn_eq]
    simp [cleared, freeCertStore, certZtdIndex, keyBit, CertDetails.empty]
    rfl
  have populated : store.cleared.populatedIdentities = Identity.local.bit ||| identitiesIn store.cleared.certs := by
    rw [identities, ztdBit, cleared]
    by_cases present : (store.certs certZtdIndex).certSize ≠ 0
    · simp only [if_pos present]
    · simp only [if_neg present]
      exact BitVec.or_zero.symm
  refine ⟨clearable.version_lt, clearable.lsv_lt, ?_, populated, ?_⟩
  · intro i
    simp only [cleared, freeCertStore]
    split
    · rename_i isZtd
      rw [isZtd]
      exact clearable.ztd
    · exact .empty_slot
  · intro users
    rw [cleared] at users
    simp only at users
    split at users <;> exact absurd rfl users

theorem keyBit_or (identity : Identity) {first second : CertDetails}
    (within : first.cert.isSome = true → second.cert.isSome = true) :
    keyBit identity first ||| keyBit identity second = keyBit identity second := by
  rw [keyBit, keyBit]
  by_cases present : first.cert.isSome = true
  · rw [if_pos present, if_pos (within present), BitVec.or_self]
  · rw [if_neg present]
    exact BitVec.zero_or

theorem identitiesIn_or {first second : Fin 7 → CertDetails}
    (within : ∀ identity i, Identity.toCertIndex identity = some i →
      (first i).cert.isSome = true → (second i).cert.isSome = true) :
    identitiesIn first ||| identitiesIn second = identitiesIn second := by
  have user := keyBit_or .signerUser (within .signerUser 0 rfl)
  have user1 := keyBit_or .signerUser1 (within .signerUser1 1 rfl)
  have user2 := keyBit_or .signerUser2 (within .signerUser2 2 rfl)
  have owner := keyBit_or .signerOwner (within .signerOwner 3 rfl)
  have ztd := keyBit_or .signerZtd (within .signerZtd 4 rfl)
  rw [identitiesIn_eq, identitiesIn_eq]
  conv_rhs => rw [← user, ← user1, ← user2, ← owner, ← ztd]
  ac_rfl

/-- Loading over a store with no other keys than the variable's makes it the variable's, up to the slots that the
variable does not know. -/
theorem Persisted.coherent_loadOver {flash : Option Variable} {stored memory : CertStore}
    (persisted : Persisted flash stored) (coherent : memory.Coherent)
    (contained : ∀ identity i, Identity.toCertIndex identity = some i →
      memory.populatedIdentities.has identity = true → (stored.certs i).cert.isSome = true) :
    (loadProvisionedData flash memory).2.Coherent := by
  have storedCoherent := persisted.coherent
  obtain ⟨indices, unknown, loads⟩ := persisted.loadsOver coherent.owned
  -- a slot that the variable does not know is that of no key in memory
  have slots : ∀ identity i, Identity.toCertIndex identity = some i →
      (if i ∈ indices then stored.certs i else memory.certs i).cert.isSome =
        (stored.certs i).cert.isSome := by
    intro identity i isIndex
    split
    · rfl
    · rename_i other
      have absent : (stored.certs i).cert.isSome = false := by simp [unknown i other, CertDetails.empty]
      rw [absent, ← coherent.has_iff isIndex, Bool.eq_false_iff]
      intro has
      rw [contained identity i isIndex has] at absent
      cases absent
  have identities : identitiesIn (fun i => if i ∈ indices then stored.certs i else memory.certs i) =
      identitiesIn stored.certs := by
    simp only [identitiesIn_eq, keyBit, slots .signerUser 0 rfl, slots .signerUser1 1 rfl, slots .signerUser2 2 rfl,
      slots .signerOwner 3 rfl, slots .signerZtd 4 rfl]
  have within : identitiesIn memory.certs ||| identitiesIn stored.certs = identitiesIn stored.certs := by
    have each : ∀ identity i, Identity.toCertIndex identity = some i →
        (memory.certs i).cert.isSome = true → (stored.certs i).cert.isSome = true := by
      intro identity i isIndex present
      rw [← coherent.has_iff isIndex] at present
      exact contained identity i isIndex present
    exact identitiesIn_or each
  rw [loads]
  refine ⟨storedCoherent.version_lt, storedCoherent.lsv_lt, ?_, ?_, ?_⟩
  · intro i
    simp only
    split
    · exact storedCoherent.storable i
    · exact coherent.storable i
  · simp only [identities]
    rw [coherent.populated, BitVec.or_assoc, within]
  · exact coherent.owned.or (KeysOwned.identitiesIn (storedCoherent.populated ▸ storedCoherent.owned))

/-! ## What the variable records -/

def CutsOffZtd (flash : Option Variable) : Prop :=
  ∃ var ∈ flash, byteAt var.data 8 = 2 ∧ packedBeforeZtd var.data ≤ var.data.length - 32 ∧
    var.data.length - 32 < packedBeforeZtd var.data + sizeField var.data certZtdIndex

/-- A load takes the certificates before the ZTD certificate and then stops. -/
def StopsAtZtd (flash : Option Variable) : Prop :=
  CutsOffZtd flash ∧ ∃ var ∈ flash, var.attributes = internalVarAttributes ∧
    fieldAt var.data 0 8 = internalVarSignature ∧ byteAt var.data 9 = 7

/-- A variable that holds the struct of its header version, and does not end inside its ZTD certificate. -/
structure HoldsZtd (data : List Byte) : Prop where
  struct : StructWithin data
  ztd : byteAt data 8 = 2 → layoutV2.packedAt + packedBeforeZtd data ≤ data.length →
    layoutV2.packedAt + packedBeforeZtd data + sizeField data certZtdIndex ≤ data.length

instance (data : List Byte) : Decidable (HoldsZtd data) :=
  decidable_of_iff (StructWithin data ∧ (byteAt data 8 = 2 → layoutV2.packedAt + packedBeforeZtd data ≤ data.length →
    layoutV2.packedAt + packedBeforeZtd data + sizeField data certZtdIndex ≤ data.length))
    ⟨fun ⟨struct, ztd⟩ => ⟨struct, ztd⟩, fun ⟨struct, ztd⟩ => ⟨struct, ztd⟩⟩

theorem not_stopsAtZtd {flash : Option Variable} (whole : ∀ var ∈ flash, HoldsZtd var.data) : ¬ StopsAtZtd flash := by
  rintro ⟨⟨var, isVar, second, fits, ends⟩, other, isOther, _, signed, _⟩
  cases Option.some.inj (isVar.symm.trans isOther)
  obtain ⟨⟨_, struct⟩, ztd⟩ := whole var isVar
  have length : 32 ≤ var.data.length := (struct signed).2.2 second
  have within : 32 + packedBeforeZtd var.data + sizeField var.data certZtdIndex ≤ var.data.length :=
    ztd second (show 32 + packedBeforeZtd var.data ≤ var.data.length by omega)
  omega

def RecordsCert (var : Variable) (i : Fin 7) : Prop :=
  sizeField var.data i ≠ 0 ∧ (byteAt var.data 8 = 1 → i.val < 4)

/-- A slot that the loop fills is storable, unless the variable ends inside its certificate. -/
theorem loadSlots_storable_or {data : List Byte} {indices : List (Fin 7)} {bytePtr varSize : Nat}
    (within : 0 < varSize → bytePtr + varSize ≤ data.length) :
    ∀ slot ∈ (loadSlots data indices bytePtr varSize).2, slot.2.Storable ∨
      ∃ before after, indices = before ++ slot.1 :: after ∧ (before.map (sizeField data)).sum ≤ varSize ∧
        varSize < (before.map (sizeField data)).sum + sizeField data slot.1 := by
  induction indices generalizing bytePtr varSize with
  | nil => exact List.forall_mem_nil _
  | cons i indices ih =>
    simp only [loadSlots]
    split
    · rename_i empty
      rw [List.forall_mem_cons]
      refine ⟨.inl .empty_slot, fun slot mem => (ih within slot mem).imp id ?_⟩
      rintro ⟨before, after, rfl, fits, ends⟩
      refine ⟨i :: before, after, rfl, ?_, ?_⟩
      · rw [List.map_cons, List.sum_cons]
        omega
      · rw [List.map_cons, List.sum_cons]
        omega
    · rename_i occupied
      split
      · rename_i short
        simp only [List.mem_singleton, forall_eq]
        exact .inr ⟨[], indices, rfl, Nat.zero_le _, by simpa using short⟩
      · rename_i enough
        rw [List.forall_mem_cons]
        refine ⟨.inl ⟨(by simp), ?_, fieldAt_lt data _ 2⟩, fun slot mem => ?_⟩
        · rintro _ ⟨⟩
          exact ⟨length_sliceAt (by omega), Nat.pos_of_ne_zero occupied⟩
        · refine (ih (by omega) slot mem).imp id ?_
          rintro ⟨before, after, rfl, fits, ends⟩
          refine ⟨i :: before, after, rfl, ?_, ?_⟩
          · rw [List.map_cons, List.sum_cons]
            omega
          · rw [List.map_cons, List.sum_cons]
            omega

theorem Persisted.recorded {var : Variable} {stored : CertStore} (persisted : Persisted (some var) stored) :
    (byteAt var.data 8 = 1 ∨ byteAt var.data 8 = 2) ∧
      ∀ i, RecordsCert var i → (stored.certs i).cert.isSome = true := by
  have storable := persisted.coherent.storable
  -- it is enough that the sizes are those of the variable
  have bySize : ∀ i, (stored.certs i).certSize ≠ 0 → (stored.certs i).cert.isSome = true := by
    intro i occupied
    rw [Option.isSome_iff_ne_none]
    exact fun none => occupied ((storable i).empty none)
  have layout : ∀ (layout : VarLayout) (memory : CertStore), layout.indices.Nodup →
      loadLayout var.data layout memory = (.success, stored) →
      ∀ i ∈ layout.indices, (stored.certs i).certSize = sizeField var.data i := by
    intro layout memory distinct loads i mem
    obtain ⟨slots, indices, _, sizes, loadsOver⟩ := loadLayout_success (show _ = EfiStatus.success by rw [loads])
    rw [← indices] at distinct mem
    obtain ⟨slot, found, rfl⟩ := List.mem_map.mp mem
    have owned := loadsOver memory
    rw [loads] at owned
    have loaded : stored = slots.foldl install memory := by
      have keys : KeysOwned (slots.foldl install memory).populatedIdentities := by
        rw [← checkOwner_success_iff, ← owned]
      rw [checkOwner_of_keysOwned keys] at owned
      exact (Prod.mk.inj owned).2
    rw [loaded, foldl_install_slot _ distinct found, sizes slot found]
  simp only [Persisted, loadProvisionedData] at persisted
  split at persisted
  · cases persisted
  · split at persisted
    · cases persisted
    · split at persisted
      · rename_i isV1
        refine ⟨.inl isV1, fun i records => bySize i ?_⟩
        have known : i ∈ layoutV1.indices := by
          have exhaustive : ∀ i : Fin 7, i.val < 4 → i ∈ layoutV1.indices := by decide
          exact exhaustive i (records.2 isV1)
        rw [layout layoutV1 _ (by decide) persisted i known]
        exact records.1
      · rename_i isV2
        refine ⟨.inr isV2, fun i records => bySize i ?_⟩
        rw [layout layoutV2 _ (List.nodup_finRange 7) persisted i (List.mem_finRange i)]
        exact records.1
      · cases persisted

/-! ## Loading at boot -/

theorem Clearable.install {store : CertStore} (clearable : store.Clearable) {slot : Fin 7 × CertDetails}
    (whole : slot.1 = certZtdIndex → slot.2.Storable) : (store.install slot).Clearable := by
  rw [install_eq]
  refine ⟨clearable.version_lt, clearable.lsv_lt, ?_⟩
  simp only [setCert]
  by_cases isZtd : certZtdIndex = slot.1
  · rw [isZtd, Function.update_self]
    exact whole isZtd.symm
  · rw [Function.update_of_ne isZtd]
    exact clearable.ztd

theorem Clearable.checkOwner {store : CertStore} (clearable : store.Clearable) :
    (CertStore.checkOwner store).2.Clearable := by
  rw [CertStore.checkOwner]
  split
  · have notUser : isUserKeyIndex certZtdIndex = false := by decide
    refine ⟨?_, ?_, ?_⟩
    · simp only
      split
      · exact Nat.two_pow_pos 32
      · exact clearable.version_lt
    · simp only
      split
      · exact Nat.two_pow_pos 32
      · exact clearable.lsv_lt
    · simp only [notUser, Bool.false_and, Bool.false_eq_true, if_false]
      exact clearable.ztd
  · exact clearable

theorem Clearable.loadLayout {store : CertStore} (clearable : store.Clearable) {data : List Byte} {layout : VarLayout}
    (whole : (byteAt data 9).toNat = layout.indices.length →
      ∀ before after, layout.indices = before ++ certZtdIndex :: after →
      (before.map (sizeField data)).sum ≤ data.length - layout.packedAt →
      (before.map (sizeField data)).sum + sizeField data certZtdIndex ≤ data.length - layout.packedAt) :
    (CertStore.loadLayout data layout store).2.Clearable := by
  have installed : (byteAt data 9).toNat = layout.indices.length →
      ((loadSlots data layout.indices layout.packedAt (data.length - layout.packedAt)).2.foldl
      CertStore.install store).Clearable := by
    intro known
    have slots : ∀ slot ∈ (loadSlots data layout.indices layout.packedAt (data.length - layout.packedAt)).2,
        slot.1 = certZtdIndex → slot.2.Storable := by
      intro slot mem isZtd
      rcases loadSlots_storable_or (by omega) slot mem with storable | ⟨before, after, indices, fits, ends⟩
      · exact storable
      · rw [isZtd] at indices ends
        exact absurd (whole known before after indices fits) (by omega)
    generalize (loadSlots data layout.indices layout.packedAt (data.length - layout.packedAt)).2 = found at slots
    induction found generalizing store with
    | nil => exact clearable
    | cons slot found ih =>
      rw [List.forall_mem_cons] at slots
      exact ih (clearable.install slots.1) slots.2
  rw [CertStore.loadLayout]
  split
  · exact clearable
  · rename_i known
    have installed := installed (not_not.mp known)
    rw [loadCerts_eq]
    cases (loadSlots data layout.indices layout.packedAt (data.length - layout.packedAt)).1 with
    | success => exact installed.checkOwner
    | error code => exact installed

/-- Whatever the variable holds, the store can start over unless a ZTD certificate was cut off. -/
theorem clearable_loadProvisionedData {flash : Option Variable} (whole : ¬ StopsAtZtd flash) :
    (loadProvisionedData flash .initial).2.Clearable := by
  have initially : ∀ version lsv, version < 2 ^ 32 → lsv < 2 ^ 32 →
      Clearable { initial with version := version, lsv := lsv } :=
    fun version lsv versionFits lsvFits => ⟨versionFits, lsvFits, .empty_slot⟩
  cases flash with
  | none => exact initially 0 0 (Nat.two_pow_pos 32) (Nat.two_pow_pos 32)
  | some var =>
    simp only [loadProvisionedData]
    split
    · exact initially 0 0 (Nat.two_pow_pos 32) (Nat.two_pow_pos 32)
    · rename_i attributes
      split
      · exact initially 0 0 (Nat.two_pow_pos 32) (Nat.two_pow_pos 32)
      · rename_i signature
        split
        · refine (initially 0 0 (Nat.two_pow_pos 32) (Nat.two_pow_pos 32)).loadLayout ?_
          -- the first header version has no ZTD certificate
          intro _ before after indices
          have mem : certZtdIndex ∈ layoutV1.indices := by
            rw [indices]
            simp
          exact absurd mem (by decide)
        · rename_i isV2
          refine (initially _ _ (fieldAt_lt _ _ 4) (fieldAt_lt _ _ 4)).loadLayout ?_
          intro maxCerts before after indices fits
          have four : before = [0, 1, 2, 3] := by
            have split : layoutV2.indices = [0, 1, 2, 3] ++ certZtdIndex :: [5, 6] := by decide
            rw [split] at indices
            exact ((List.append_cons_inj_of_notMem (by decide) (by decide)).mp indices).1.symm
          subst four
          by_contra ends
          exact whole ⟨⟨var, rfl, isV2, fits, Nat.lt_of_not_le ends⟩, var, rfl, not_not.mp attributes,
            not_not.mp signature, BitVec.eq_of_toNat_eq maxCerts⟩
        · exact initially 0 0 (Nat.two_pow_pos 32) (Nat.two_pow_pos 32)

def Inert (flash : Option Variable) : Prop :=
  ∀ memory, loadProvisionedData flash memory = (.incompatibleVersion, memory)

theorem loadLayout_ne_incompatibleVersion (data : List Byte) (layout : VarLayout) (store : CertStore) :
    (loadLayout data layout store).1 ≠ .incompatibleVersion := by
  have compromised : ∀ (indices : List (Fin 7)) (bytePtr varSize : Nat),
      (loadSlots data indices bytePtr varSize).1 = .success ∨
        (loadSlots data indices bytePtr varSize).1 = .compromisedData := by
    intro indices
    induction indices with
    | nil => exact fun _ _ => .inl rfl
    | cons i indices ih =>
      intro bytePtr varSize
      simp only [loadSlots]
      split
      · exact ih _ _
      · split
        · exact .inr rfl
        · exact ih _ _
  rw [loadLayout]
  split
  · simp
  · rw [loadCerts_eq]
    rcases compromised layout.indices layout.packedAt (data.length - layout.packedAt) with loads | fails
    · simp only [loads, checkOwner]
      split <;> simp
    · rw [fails]
      simp

theorem inert_of_incompatibleVersion {flash : Option Variable} {store : CertStore}
    (fails : (loadProvisionedData flash store).1 = .incompatibleVersion) : Inert flash := by
  intro memory
  cases flash with
  | none => cases fails
  | some var =>
    simp only [loadProvisionedData] at fails ⊢
    split at fails
    · cases fails
    · rename_i attributes
      split at fails
      · cases fails
      · rename_i signature
        rw [if_neg attributes, if_neg signature]
        split at fails
        · exact absurd fails (loadLayout_ne_incompatibleVersion _ _ _)
        · exact absurd fails (loadLayout_ne_incompatibleVersion _ _ _)
        · rfl

inductive PopulateEffect (flash : Option Variable) : CertStore → Option Variable → Prop
  | loaded {stored : CertStore} (persisted : Persisted flash stored) : PopulateEffect flash stored flash
  | inert (inert : Inert flash) : PopulateEffect flash CertStore.initial.freeCertStore flash
  | cleared (loaded : CertStore) (isLoaded : (loadProvisionedData flash .initial).2 = loaded) :
      PopulateEffect flash
        (loadProvisionedData (some ⟨internalVarAttributes, loaded.cleared.encode⟩) loaded.cleared).2
        (some ⟨internalVarAttributes, loaded.cleared.encode⟩)

/-! ## Memory and variable together -/

structure Paired (certs : CertStore) (flash : Option Variable) : Prop where
  coherent : certs.Coherent
  loads : (∃ stored, Persisted flash stored) ∨ Inert flash

section

variable {p : Platform} (writes : ∀ data, p.setVariable .certificateStore data = .success)
include writes

theorem Coherent.saved {store : CertStore} (coherent : store.Coherent) (flash : Option Variable) :
    Paired store (saveProvisionedData p flash store).2 := by
  simp only [saveProvisionedData, writes]
  exact ⟨coherent, .inl ⟨store, coherent.persisted⟩⟩

theorem Clearable.initialized {store : CertStore} (clearable : store.Clearable) (flash : Option Variable) :
    Paired (initializeProvisionedData p flash store).2.1 (initializeProvisionedData p flash store).2.2 := by
  rw [initializeProvisionedData_eq flash store (writes _)]
  exact ⟨clearable.coherent, .inl ⟨_, clearable.coherent.persisted⟩⟩

/-- A boot keeps what it can load or cannot understand, and otherwise starts over. -/
theorem populateInternalCertStore_effect (flash : Option Variable) :
    let populated := populateInternalCertStore p flash .initial
    PopulateEffect flash populated.2.1 populated.2.2 := by
  rw [populateInternalCertStore]
  generalize found : loadProvisionedData flash .initial = answer
  obtain ⟨status, loaded⟩ := answer
  cases status with
  | success => exact .loaded found
  | error code =>
    simp only
    by_cases incompatible : EfiStatus.error code = .incompatibleVersion
    · have inert : Inert flash := inert_of_incompatibleVersion (show _ = _ by rw [found]; exact incompatible)
      have kept : loaded = .initial := by
        have loads := inert .initial
        rw [found] at loads
        exact (Prod.mk.inj loads).2
      simp only [if_pos incompatible, kept, inert CertStore.initial.freeCertStore]
      exact .inert inert
    · simp only [if_neg incompatible, initializeProvisionedData_eq flash loaded.freeCertStore (writes _),
        cleared_freeCertStore]
      exact .cleared loaded (congrArg Prod.snd found)

theorem paired_populateInternalCertStore {flash : Option Variable} (whole : ¬ StopsAtZtd flash) :
    let populated := populateInternalCertStore p flash .initial
    Paired populated.2.1 populated.2.2 := by
  have clearable := clearable_loadProvisionedData whole
  have effect := populateInternalCertStore_effect writes flash
  simp only at effect ⊢
  generalize (populateInternalCertStore p flash .initial).2.1 = certs at effect ⊢
  generalize (populateInternalCertStore p flash .initial).2.2 = after at effect ⊢
  cases effect with
  | loaded persisted => exact ⟨persisted.coherent, .inl ⟨_, persisted⟩⟩
  | inert inert =>
    have free : CertStore.initial.freeCertStore = CertStore.initial.cleared := by
      ext1
      · rfl
      · rfl
      · rfl
      · rfl
    rw [free]
    exact ⟨Clearable.coherent ⟨Nat.two_pow_pos 32, Nat.two_pow_pos 32, .empty_slot⟩, .inr inert⟩
  | cleared loaded isLoaded =>
    rw [isLoaded] at clearable
    have persisted := clearable.coherent.persisted
    simp only [persisted.reloads]
    exact ⟨clearable.coherent, .inl ⟨_, persisted⟩⟩

/-- The Zero Touch handling, when the certificate in the firmware is one that a slot can hold. -/
theorem Paired.zeroTouch {certs : CertStore} {flash : Option Variable} (paired : Paired certs flash)
    {zeroTouch : ZeroTouch}
    (fits : ∀ cert, zeroTouch.certificate = .ok cert → 0 < cert.length ∧ cert.length < 2 ^ 16) :
    Paired (certs.zeroTouch p zeroTouch flash).1 (certs.zeroTouch p zeroTouch flash).2 := by
  have isZtd : Identity.toCertIndex .signerZtd = some certZtdIndex := rfl
  simp only [CertStore.zeroTouch]
  split
  · exact paired
  · split
    · split
      · exact paired
      · rename_i cert isCert
        obtain ⟨positive, small⟩ := fits cert isCert
        have storable : CertDetails.Storable ⟨some cert, cert.length⟩ := by
          refine ⟨(by simp), ?_, small⟩
          rintro _ ⟨⟩
          exact ⟨rfl, positive⟩
        exact Coherent.saved writes (paired.coherent.install isZtd storable (by rintro ⟨⟩)) flash
    · exact paired
  · split
    · exact Coherent.saved writes (paired.coherent.remove isZtd (by simp)) flash
    · exact paired

end

end CertStore

/-- What `DecodePacket` leaves of an identity packet: a payload pointer only with a payload. -/
def Packet.Decoded (data : Packet) : Prop :=
  data.payloadSize = 0 → data.payload = none

theorem initializePacket_decoded (p : Platform) (box : MailBox) (read : Except Nat (List Byte)) :
    (initializePacket p box read).data.Decoded := by
  have header : ∀ data : Packet, data.payload = none → (readHeader data).Decoded := by
    intro data none empty
    have size : PacketHeader.payloadSize data.bytes = 0 := empty
    simp [readHeader, size, none]
  have decodes : ∀ data : Packet, data.payload = none → (decodePacket p data).2.Decoded := by
    intro data none
    rw [decodePacket]
    split
    · exact fun _ => none
    · split
      · exact header data none
      · rename_i located locates
        have decoded : located.Decoded := by
          have decoded := header data none
          simp only [locateSignature] at locates
          repeat' split at locates
          all_goals cases locates
          all_goals exact decoded
        cases checks : checkTargets p located with
        | error failure => exact decoded
        | ok checked =>
          obtain ⟨wildcard, rfl⟩ := checkTargets_ok checks
          exact decoded
  cases read with
  | error code => exact fun _ => rfl
  | ok bytes =>
    have decoded := decodes { Packet.allocated box.hdrSignature 2 with packet := some bytes } rfl
    simp only [initializePacket]
    split
    · rw [decodeIdentityPacket]
      generalize decodePacket p { Packet.allocated box.hdrSignature 2 with packet := some bytes } =
        answer at decoded
      obtain ⟨status, data⟩ := answer
      cases status with
      | error code | success => exact decoded
    · exact decoded

inductive CertEvent where
  | packet (ui : UserInterface) (data : Packet) (decoded : data.Decoded)
  | lkg (op : LkgOperation) (data : Packet)
  | clearDfci (token : AuthToken)

namespace Machine

def certStep (p : Platform) (m : Machine) : CertEvent → Machine
  | .packet ui data _ => (applyNewIdentityPacket p ui m data).machine
  | .lkg op data => (identityLkgHandler p op m data).machine
  | .clearDfci token => (m.clearDfci p token).2

def KeysRecorded (m : Machine) : Prop :=
  ∀ var ∈ m.certFlash, byteAt var.data 8 = 1 ∨ byteAt var.data 8 = 2 →
    ∀ identity i, Identity.toCertIndex identity = some i →
      m.certs.populatedIdentities.has identity = true → CertStore.RecordsCert var i

def RestoresAll (m : Machine) : CertEvent → Prop
  | .lkg .restore data => data.lkgDirty = true → m.KeysRecorded
  | _ => True

def CertsPaired (m : Machine) : Prop := CertStore.Paired m.certs m.certFlash

section

variable {p : Platform} (writes : ∀ data, p.setVariable .certificateStore data = .success)
include writes

theorem CertsPaired.clearDfci {m : Machine} (paired : m.CertsPaired) (token : AuthToken) :
    (m.clearDfci p token).2.CertsPaired := by
  have effect := m.clearDfci_effect p token
  have initialized := paired.coherent.clearable.initialized writes m.certFlash
  generalize m.clearDfci p token = result at effect
  cases effect with
  | refused | permissionsFailed => exact paired
  | certsFailed code perms certs certFlash may resets fails =>
    rw [fails] at initialized
    exact initialized
  | cleared perms certs certFlash may resets clears =>
    rw [clears] at initialized
    exact initialized

theorem CertsPaired.packet {m : Machine} (paired : m.CertsPaired) (ui : UserInterface)
    {data : Packet} (decoded : data.Decoded) : (applyNewIdentityPacket p ui m data).machine.CertsPaired := by
  have effect := applyNewIdentityPacket_effect p ui m data
  generalize (applyNewIdentityPacket p ui m data).machine = after at effect
  cases effect with
  | kept => exact paired
  | provisioned identity approver i auth present valid names approval isIndex notCleared =>
    obtain ⟨_, passed⟩ := approval.passed
    have owned := passed.owned
    exact ⟨paired.coherent.provision isIndex valid decoded owned notCleared, paired.loads⟩
  | clears approver token before =>
    have same : ({ m with auth := before } : Machine).CertsPaired := paired
    exact same.clearDfci writes token

omit writes in
theorem CertsPaired.restore {m : Machine} (paired : m.CertsPaired) (recorded : m.KeysRecorded) :
    CertStore.Paired (CertStore.loadProvisionedData m.certFlash m.certs).2 m.certFlash := by
  obtain ⟨coherent, ⟨stored, persisted⟩ | inert⟩ := paired
  · refine ⟨persisted.coherent_loadOver coherent ?_, .inl ⟨stored, persisted⟩⟩
    intro identity i isIndex has
    cases isFlash : m.certFlash with
    | none =>
      rw [isFlash] at persisted
      cases persisted
    | some var =>
      rw [isFlash] at persisted
      obtain ⟨version, records⟩ := persisted.recorded
      exact records i (recorded var isFlash version identity i isIndex has)
  · rw [inert m.certs]
    exact ⟨coherent, .inr inert⟩

theorem CertsPaired.lkg {m : Machine} (paired : m.CertsPaired) {op : LkgOperation}
    {data : Packet} (restores : m.RestoresAll (.lkg op data)) :
    (identityLkgHandler p op m data).machine.CertsPaired := by
  have effect := identityLkgHandler_effect p op m data
  generalize (identityLkgHandler p op m data).machine = after at effect
  cases effect with
  | kept => exact paired
  | reloaded dirty fails =>
    cases op with
    | restore => exact paired.restore (restores dirty)
    | commit => simp [CertStore.saveProvisionedData, writes, EfiStatus.isError] at fails
  | saved =>
    have saved := paired.coherent.saved writes m.certFlash
    simp only [CertStore.saveProvisionedData, writes] at saved ⊢
    exact saved

theorem CertsPaired.step {m : Machine} {event : CertEvent} (paired : m.CertsPaired)
    (restores : m.RestoresAll event) : (m.certStep p event).CertsPaired := by
  cases event with
  | packet ui data decoded => exact paired.packet writes ui decoded
  | lkg op data => exact paired.lkg writes restores
  | clearDfci token => exact paired.clearDfci writes token

theorem boot_certsPaired {m : Machine} {zeroTouch : ZeroTouch}
    (whole : ∀ var ∈ m.certFlash, CertStore.HoldsZtd var.data)
    (fits : ∀ cert, zeroTouch.certificate = .ok cert → 0 < cert.length ∧ cert.length < 2 ^ 16) :
    (m.boot p zeroTouch).CertsPaired :=
  (CertStore.paired_populateInternalCertStore writes (CertStore.not_stopsAtZtd whole)).zeroTouch writes fits

/-- After a boot on a variable that ends neither inside its struct nor inside its ZTD certificate, as long as no restore
comes when a key is only in memory, the bits of `PopulatedIdentities` are those of the slots. -/
theorem identities_represented (m : Machine) (zeroTouch : ZeroTouch) (events : List CertEvent)
    (whole : ∀ var ∈ m.certFlash, CertStore.HoldsZtd var.data)
    (fits : ∀ cert, zeroTouch.certificate = .ok cert → 0 < cert.length ∧ cert.length < 2 ^ 16)
    (restores : Runs.Guarded (certStep p) RestoresAll (m.boot p zeroTouch) events) :
    (Runs.run (certStep p) (m.boot p zeroTouch) events).certs.Represented := by
  have paired : (Runs.run (certStep p) (m.boot p zeroTouch) events).CertsPaired :=
    restores.invariant (certStep p) (fun _ _ paired restores => paired.step writes restores)
      (boot_certsPaired writes whole fits)
  exact paired.coherent.represented

end

def ownerPacket : Packet := (initializePacket keyedPlatform .identity (.ok (enrollPacket 1 1 1))).data

theorem ownerPacket_decoded : ownerPacket.Decoded := initializePacket_decoded keyedPlatform .identity _

def bootedMachine : Machine := (blank .empty 0).boot keyedPlatform {}

/-- On a machine with a ZTD certificate, the local user confirms the Owner's certificate, and it is committed. -/
theorem identities_represented_ownerEnrolled :
    let m := enrolledMachine keyedPlatform [(.signerZtd, 9)]
    let events := [CertEvent.packet confirmingUser ownerPacket ownerPacket_decoded,
      .lkg .commit { ownerPacket with lkgDirty := true }]
    let after := Runs.run (certStep keyedPlatform) (m.boot keyedPlatform {}) events
    after.certs.provisionedCert .signerOwner = some [1] ∧ after.certs.provisionedCert .signerZtd = some [9] ∧
      after.certs.Represented := by
  intro m events after
  have whole : ∀ var ∈ m.certFlash, CertStore.HoldsZtd var.data := by decide +kernel
  exact ⟨by decide +kernel, by decide +kernel, identities_represented (fun _ => rfl) m {} events whole (by simp)
    ⟨trivial, trivial, trivial⟩⟩

def cutOffVariable : Variable :=
  ⟨internalVarAttributes, { CertStore.initial with
    certs := Function.update CertStore.initial.certs certZtdIndex ⟨none, 1⟩ }.encode⟩

/-- A cut off ZTD certificate leaves its size behind, and with it the ZTD bit. A restore takes an Owner's certificate
out of its slot, but not the Owner's bit out of the mask. -/
theorem identities_not_represented :
    let cutOff := ({ blank ⟨[], [], nofun⟩ 0 with certFlash := some cutOffVariable } : Machine).boot keyedPlatform {}
    let events := [CertEvent.packet confirmingUser ownerPacket ownerPacket_decoded,
      .lkg .restore { ownerPacket with lkgDirty := true }]
    ¬ cutOff.certs.Represented ∧ ¬ (Runs.run (certStep keyedPlatform) bootedMachine events).certs.Represented := by
  refine ⟨fun represented => ?_, fun represented => ?_⟩
  · have ztd := represented .signerZtd certZtdIndex rfl
    revert ztd
    decide +kernel
  · have owner := represented .signerOwner certOwnerIndex rfl
    revert owner
    decide +kernel

end Machine

end Dfci
