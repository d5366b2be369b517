import Dfci.Identity.Certificates

/-! # Saving and loading certificates

`LoadProvisionedData` loads over the store in memory. Which certificates it finds depends on the variable only; what it
makes of the memory is a fold over them. -/

namespace ByteFields

/-- Reading one of several fields of the same width that follow each other. -/
theorem fieldAt_flatMap {α : Type*} {width : Nat} (field : α → Nat) {items : List α} {position : Nat}
    (inside : position < items.length) (fits : field (items.get ⟨position, inside⟩) < 256 ^ width) (after : Bytes) :
    fieldAt (items.flatMap (fun item => littleEndian width (field item)) ++ after) (width * position) width =
      field (items.get ⟨position, inside⟩) := by
  induction items generalizing position with
  | nil => simp at inside
  | cons item items ih =>
    rw [List.flatMap_cons, List.append_assoc]
    cases position with
    | zero => exact fieldAt_littleEndian fits _
    | succ position =>
      have shifted : width * (position + 1) - width = width * position := by
        rw [Nat.mul_succ, Nat.add_sub_cancel]
      rw [fieldAt_append_right (by rw [length_littleEndian, Nat.mul_succ]; omega), length_littleEndian, shifted]
      exact ih (Nat.lt_of_succ_lt_succ inside) fits

end ByteFields

namespace Dfci

open ByteFields

/-- A slot as the variable can hold it: empty, or a certificate of the size that is recorded for it. -/
structure CertDetails.Storable (details : CertDetails) : Prop where
  empty : details.cert = none → details.certSize = 0
  sized : ∀ cert ∈ details.cert, cert.length = details.certSize ∧ 0 < details.certSize
  fits : details.certSize < 2 ^ 16

theorem CertDetails.Storable.empty_slot : CertDetails.empty.Storable :=
  ⟨fun _ => rfl, nofun, Nat.two_pow_pos 16⟩

namespace CertStore

/-- One turn of the loop of `LoadProvisionedData`, for a slot as it was found. -/
def install (store : CertStore) (slot : Fin 7 × CertDetails) : CertStore :=
  match slot.2.cert with
  | none => store.setCert slot.1 slot.2
  | some _ => (store.setCert slot.1 slot.2).populate slot.1

def loadSlots (data : List Byte) : List (Fin 7) → Nat → Nat → EfiStatus × List (Fin 7 × CertDetails)
  | [], _, _ => (.success, [])
  | i :: indices, bytePtr, varSize =>
    let size := sizeField data i
    if size = 0 then
      let rest := loadSlots data indices bytePtr varSize
      (rest.1, (i, .empty) :: rest.2)
    else if varSize < size then
      (.compromisedData, [(i, ⟨none, size⟩)])
    else
      let rest := loadSlots data indices (bytePtr + size) (varSize - size)
      (rest.1, (i, ⟨some (sliceAt data bytePtr size), size⟩) :: rest.2)

theorem loadCerts_eq (data : List Byte) (indices : List (Fin 7)) (bytePtr varSize : Nat) (store : CertStore) :
    loadCerts data indices bytePtr varSize store =
      ((loadSlots data indices bytePtr varSize).1, (loadSlots data indices bytePtr varSize).2.foldl install store) := by
  induction indices generalizing bytePtr varSize store with
  | nil => rfl
  | cons i indices ih =>
    simp only [loadCerts, loadSlots]
    split
    · rw [ih]
      rfl
    · split
      · rfl
      · rw [ih]
        rfl

section

variable {data : List Byte} {indices : List (Fin 7)} {bytePtr varSize : Nat}

theorem loadSlots_indices (loads : (loadSlots data indices bytePtr varSize).1 = .success) :
    (loadSlots data indices bytePtr varSize).2.map Prod.fst = indices := by
  induction indices generalizing bytePtr varSize with
  | nil => rfl
  | cons i indices ih =>
    simp only [loadSlots] at loads ⊢
    split at loads
    · rename_i empty
      simp only [if_pos empty, List.map_cons, ih loads]
    · split at loads
      · contradiction
      · rename_i occupied enough
        simp only [if_neg occupied, if_neg enough, List.map_cons, ih loads]

theorem loadSlots_size :
    ∀ slot ∈ (loadSlots data indices bytePtr varSize).2, slot.2.certSize = sizeField data slot.1 := by
  induction indices generalizing bytePtr varSize with
  | nil => exact List.forall_mem_nil _
  | cons i indices ih =>
    simp only [loadSlots]
    split
    · rename_i empty
      rw [List.forall_mem_cons]
      exact ⟨empty.symm, ih⟩
    · split
      · simp
      · rw [List.forall_mem_cons]
        exact ⟨rfl, ih⟩

theorem loadSlots_storable (within : 0 < varSize → bytePtr + varSize ≤ data.length)
    (loads : (loadSlots data indices bytePtr varSize).1 = .success) :
    ∀ slot ∈ (loadSlots data indices bytePtr varSize).2, slot.2.Storable := by
  induction indices generalizing bytePtr varSize with
  | nil => simp [loadSlots]
  | cons i indices ih =>
    simp only [loadSlots] at loads ⊢
    split at loads
    · rename_i empty
      simp only [if_pos empty, List.forall_mem_cons]
      exact ⟨CertDetails.Storable.empty_slot, ih within loads⟩
    · split at loads
      · contradiction
      · rename_i occupied enough
        simp only [if_neg occupied, if_neg enough, List.forall_mem_cons]
        refine ⟨⟨(by simp), ?_, fieldAt_lt data _ 2⟩, ih (by omega) loads⟩
        rintro _ ⟨⟩
        exact ⟨length_sliceAt (by omega), Nat.pos_of_ne_zero occupied⟩

end

/-! ## The store after a load -/

/-- The bit a slot stands for in `PopulatedIdentities`. -/
def slotBit (slot : Fin 7 × CertDetails) : Mask :=
  if slot.2.cert.isSome then (certIndexToDfciIdentity slot.1).elim 0 Identity.bit else 0

def slotBits (slots : List (Fin 7 × CertDetails)) : Mask :=
  slots.foldr (fun slot bits => slotBit slot ||| bits) 0

def identitiesIn (certs : Fin 7 → CertDetails) : Mask :=
  slotBits ((List.finRange 7).map fun i => (i, certs i))

theorem install_eq (store : CertStore) (slot : Fin 7 × CertDetails) :
    store.install slot = { store.setCert slot.1 slot.2 with
      populatedIdentities := store.populatedIdentities ||| slotBit slot } := by
  obtain ⟨i, cert, certSize⟩ := slot
  cases cert with
  | none => simp [install, slotBit, setCert]
  | some cert =>
    simp only [install, slotBit, populate, Option.isSome_some, if_true]
    cases certIndexToDfciIdentity i with
    | none => simp [setCert]
    | some identity => rfl

section

variable {slots : List (Fin 7 × CertDetails)} (store : CertStore)

theorem foldl_install_populated :
    (slots.foldl install store).populatedIdentities = store.populatedIdentities ||| slotBits slots := by
  induction slots generalizing store with
  | nil => simp [slotBits]
  | cons slot slots ih =>
    rw [List.foldl_cons, ih, install_eq]
    simp [slotBits, BitVec.or_assoc]

theorem foldl_install_versions :
    (slots.foldl install store).version = store.version ∧ (slots.foldl install store).lsv = store.lsv := by
  induction slots generalizing store with
  | nil => exact ⟨rfl, rfl⟩
  | cons slot slots ih =>
    rw [List.foldl_cons, install_eq]
    exact ih _

theorem foldl_install_other {i : Fin 7} (other : i ∉ slots.map Prod.fst) :
    (slots.foldl install store).certs i = store.certs i := by
  induction slots generalizing store with
  | nil => rfl
  | cons slot slots ih =>
    rw [List.map_cons, List.mem_cons, not_or] at other
    rw [List.foldl_cons, ih _ other.2, install_eq]
    exact Function.update_of_ne other.1 _ _

theorem foldl_install_slot (distinct : (slots.map Prod.fst).Nodup) {slot : Fin 7 × CertDetails}
    (mem : slot ∈ slots) : (slots.foldl install store).certs slot.1 = slot.2 := by
  induction slots generalizing store with
  | nil => cases mem
  | cons head slots ih =>
    rw [List.map_cons, List.nodup_cons] at distinct
    rw [List.foldl_cons]
    rcases List.mem_cons.mp mem with rfl | later
    · rw [foldl_install_other _ distinct.1, install_eq]
      exact Function.update_self _ _ _
    · exact ih _ distinct.2 later

end

def KeysOwned (populated : Mask) : Prop :=
  populated &&& Mask.userKeys ≠ 0 → populated.has .signerOwner = true

theorem KeysOwned.or {first second : Mask} (firstOwned : KeysOwned first) (secondOwned : KeysOwned second) :
    KeysOwned (first ||| second) := by
  intro users
  rw [Ne, Mask.or_and_eq_zero, not_and_or] at users
  rw [Mask.has_or, Bool.or_eq_true]
  rcases users with inFirst | inSecond
  · exact .inl (firstOwned inFirst)
  · exact .inr (secondOwned inSecond)

theorem checkOwner_success_iff {store : CertStore} :
    (checkOwner store).1 = .success ↔ KeysOwned store.populatedIdentities := by
  rw [checkOwner, KeysOwned]
  split
  · rename_i unowned
    simpa using unowned
  · rename_i owned
    simpa using owned

theorem checkOwner_of_keysOwned {store : CertStore} (owned : KeysOwned store.populatedIdentities) :
    checkOwner store = (.success, store) := by
  have held : ¬ (store.populatedIdentities &&& Mask.userKeys ≠ 0 ∧ !store.populatedIdentities.has .signerOwner) := by
    rintro ⟨users, unowned⟩
    rw [owned users] at unowned
    contradiction
  rw [checkOwner, if_neg held]

structure Content where
  version : Nat
  lsv : Nat
  slots : List (Fin 7 × CertDetails)

structure Content.Valid (content : Content) : Prop where
  version_lt : content.version < 2 ^ 32
  lsv_lt : content.lsv < 2 ^ 32
  storable : ∀ slot ∈ content.slots, slot.2.Storable
  distinct : (content.slots.map Prod.fst).Nodup
  /-- The first header version knows only four certificates. -/
  indices : content.slots.map Prod.fst = layoutV1.indices ∨ content.slots.map Prod.fst = layoutV2.indices

def Content.loadOver (content : Content) (memory : CertStore) : CertStore :=
  content.slots.foldl install { memory with version := content.version, lsv := content.lsv }

@[simp] theorem Content.loadOver_version (content : Content) (memory : CertStore) :
    (content.loadOver memory).version = content.version :=
  (foldl_install_versions _).1

@[simp] theorem Content.loadOver_lsv (content : Content) (memory : CertStore) :
    (content.loadOver memory).lsv = content.lsv :=
  (foldl_install_versions _).2

theorem loadLayout_success {data : List Byte} {layout : VarLayout} {memory : CertStore}
    (loads : (loadLayout data layout memory).1 = .success) :
    ∃ slots : List (Fin 7 × CertDetails), slots.map Prod.fst = layout.indices ∧ (∀ slot ∈ slots, slot.2.Storable) ∧
      (∀ slot ∈ slots, slot.2.certSize = sizeField data slot.1) ∧
      ∀ other, loadLayout data layout other = checkOwner (slots.foldl install other) := by
  rw [loadLayout] at loads
  split at loads
  · cases loads
  · rename_i known
    rw [loadCerts_eq] at loads
    cases found : (loadSlots data layout.indices layout.packedAt (data.length - layout.packedAt)).1 with
    | error code =>
      rw [found] at loads
      cases loads
    | success =>
      refine ⟨_, loadSlots_indices found, loadSlots_storable (by omega) found, loadSlots_size, ?_⟩
      intro other
      rw [loadLayout, if_neg known, loadCerts_eq, found]

/-- A variable that loads once loads over any memory, with the same content. -/
theorem loadProvisionedData_success {flash : Option Variable} {memory : CertStore}
    (loads : (loadProvisionedData flash memory).1 = .success) : ∃ content : Content, content.Valid ∧
      ∀ other, loadProvisionedData flash other = checkOwner (content.loadOver other) := by
  cases flash with
  | none => cases loads
  | some var =>
    simp only [loadProvisionedData] at loads ⊢
    split at loads
    · cases loads
    · split at loads
      · cases loads
      · rename_i attributes signature
        simp only [if_neg attributes, if_neg signature]
        split at loads
        · rename_i isV1
          obtain ⟨slots, indices, storable, _, loadsOver⟩ := loadLayout_success loads
          refine ⟨⟨0, 0, slots⟩, ⟨Nat.two_pow_pos 32, Nat.two_pow_pos 32, storable, ?_, .inl indices⟩,
            fun other => loadsOver _⟩
          rw [indices]
          decide
        · rename_i isV2
          obtain ⟨slots, indices, storable, _, loadsOver⟩ := loadLayout_success loads
          refine ⟨⟨_, _, slots⟩, ⟨fieldAt_lt _ _ 4, fieldAt_lt _ _ 4, storable, ?_, .inr indices⟩,
            fun other => loadsOver _⟩
          rw [indices]
          decide
        · cases loads

/-! ## Memory and variable -/

structure Coherent (store : CertStore) : Prop where
  version_lt : store.version < 2 ^ 32
  lsv_lt : store.lsv < 2 ^ 32
  storable : ∀ i, (store.certs i).Storable
  populated : store.populatedIdentities = Identity.local.bit ||| identitiesIn store.certs
  owned : KeysOwned store.populatedIdentities

def Persisted (flash : Option Variable) (store : CertStore) : Prop :=
  loadProvisionedData flash .initial = (.success, store)

instance (flash : Option Variable) (store : CertStore) : Decidable (Persisted flash store) :=
  inferInstanceAs (Decidable (_ = _))

theorem slotBits_append (first second : List (Fin 7 × CertDetails)) :
    slotBits (first ++ second) = slotBits first ||| slotBits second := by
  induction first with
  | nil => simp [slotBits]
  | cons slot slots ih =>
    change slotBit slot ||| slotBits (slots ++ second) = slotBit slot ||| slotBits slots ||| slotBits second
    rw [ih, BitVec.or_assoc]

theorem slotBits_eq_zero {slots : List (Fin 7 × CertDetails)} (empty : ∀ slot ∈ slots, slot.2.cert = none) :
    slotBits slots = 0 := by
  induction slots with
  | nil => rfl
  | cons slot slots ih =>
    obtain ⟨none, rest⟩ := List.forall_mem_cons.mp empty
    change slotBit slot ||| slotBits slots = 0
    rw [ih rest]
    simp [slotBit, none]

namespace Content.Valid

variable {content : Content} (valid : content.Valid)
include valid

theorem loadOver_certs (memory : CertStore) (i : Fin 7) : (content.loadOver memory).certs i =
      if i ∈ content.slots.map Prod.fst then (content.loadOver .initial).certs i else memory.certs i := by
  split
  · rename_i mem
    obtain ⟨slot, found, rfl⟩ := List.mem_map.mp mem
    rw [Content.loadOver, Content.loadOver, foldl_install_slot _ valid.distinct found,
      foldl_install_slot _ valid.distinct found]
  · rename_i other
    exact foldl_install_other _ other

theorem slotBits_eq : slotBits content.slots = identitiesIn (content.loadOver .initial).certs := by
  have slots : content.slots =
      (content.slots.map Prod.fst).map fun i => (i, (content.loadOver .initial).certs i) := by
    rw [List.map_map]
    conv_lhs => rw [← List.map_id content.slots]
    refine List.map_congr_left fun slot mem => ?_
    change slot = (slot.1, (content.loadOver .initial).certs slot.1)
    rw [Content.loadOver, foldl_install_slot _ valid.distinct mem]
  rcases valid.indices with onlyFour | allSeven
  · have empty : ∀ i ∈ [(4 : Fin 7), 5, 6], ((content.loadOver .initial).certs i).cert = none := by
      intro i mem
      have other : i ∉ content.slots.map Prod.fst := by
        rw [onlyFour]
        revert i
        decide
      rw [Content.loadOver, foldl_install_other _ other]
      rfl
    have split : List.finRange 7 = layoutV1.indices ++ [4, 5, 6] := by decide
    have reserved : slotBits ([4, 5, 6].map fun i => (i, (content.loadOver .initial).certs i)) = 0 :=
      slotBits_eq_zero (by simpa using empty)
    rw [identitiesIn, split, List.map_append, slotBits_append, reserved, slots, onlyFour]
    exact BitVec.or_zero.symm
  · rw [identitiesIn, slots, allSeven]
    rfl

theorem loadOver_eq (memory : CertStore) : content.loadOver memory = { content.loadOver .initial with
        populatedIdentities := memory.populatedIdentities ||| identitiesIn (content.loadOver .initial).certs
        certs := fun i =>
          if i ∈ content.slots.map Prod.fst then (content.loadOver .initial).certs i
          else memory.certs i } := by
  ext1
  · exact (content.loadOver_version memory).trans (content.loadOver_version .initial).symm
  · exact (content.loadOver_lsv memory).trans (content.loadOver_lsv .initial).symm
  · rw [Content.loadOver, foldl_install_populated, valid.slotBits_eq]
  · exact funext (valid.loadOver_certs memory)

theorem coherent (owned : KeysOwned (content.loadOver .initial).populatedIdentities) :
    (content.loadOver .initial).Coherent where
  version_lt := by
    rw [content.loadOver_version]
    exact valid.version_lt
  lsv_lt := by
    rw [content.loadOver_lsv]
    exact valid.lsv_lt
  storable := by
    intro i
    by_cases mem : i ∈ content.slots.map Prod.fst
    · obtain ⟨slot, found, rfl⟩ := List.mem_map.mp mem
      rw [Content.loadOver, foldl_install_slot _ valid.distinct found]
      exact valid.storable slot found
    · rw [Content.loadOver, foldl_install_other _ mem]
      exact CertDetails.Storable.empty_slot
  populated := by
    rw [← valid.slotBits_eq, Content.loadOver, foldl_install_populated]
    rfl
  owned := owned

end Content.Valid

section

variable {flash : Option Variable} {store : CertStore}

theorem Persisted.content (persisted : Persisted flash store) :
    ∃ content : Content, content.Valid ∧ store = content.loadOver .initial ∧ KeysOwned store.populatedIdentities ∧
      ∀ other, loadProvisionedData flash other = checkOwner (content.loadOver other) := by
  have loads : (loadProvisionedData flash .initial).1 = .success := by rw [persisted]
  obtain ⟨content, valid, loadsOver⟩ := loadProvisionedData_success loads
  have owned : KeysOwned (content.loadOver .initial).populatedIdentities := by
    rw [← checkOwner_success_iff, ← loadsOver, persisted]
  have same : store = content.loadOver .initial := by
    have loaded := loadsOver .initial
    rw [persisted, checkOwner_of_keysOwned owned] at loaded
    exact (Prod.mk.inj loaded).2
  exact ⟨content, valid, same, same ▸ owned, loadsOver⟩

theorem Persisted.coherent (persisted : Persisted flash store) : store.Coherent := by
  obtain ⟨content, valid, rfl, owned, _⟩ := persisted.content
  exact valid.coherent owned

theorem KeysOwned.identitiesIn {certs : Fin 7 → CertDetails}
    (owned : KeysOwned (Identity.local.bit ||| CertStore.identitiesIn certs)) :
    KeysOwned (CertStore.identitiesIn certs) := by
  intro users
  have held := owned (by rw [Ne, Mask.or_and_eq_zero]; exact fun both => users both.2)
  simpa [Mask.has_or, show Identity.local.bit.has .signerOwner = false by decide] using held

/-- Loading over a memory brings back the slots of the variable, and the bits of both. -/
theorem Persisted.loadsOver (persisted : Persisted flash store) {memory : CertStore}
    (owned : KeysOwned memory.populatedIdentities) :
    ∃ indices : List (Fin 7), (∀ i ∉ indices, store.certs i = .empty) ∧
      loadProvisionedData flash memory = (.success, { store with
        populatedIdentities := memory.populatedIdentities ||| identitiesIn store.certs
        certs := fun i => if i ∈ indices then store.certs i else memory.certs i }) := by
  have coherent := persisted.coherent
  obtain ⟨content, valid, rfl, _, loadsOver⟩ := persisted.content
  refine ⟨content.slots.map Prod.fst, fun i other => ?_, ?_⟩
  · rw [valid.loadOver_certs, if_neg other]
    rfl
  · have identities : KeysOwned (identitiesIn (content.loadOver .initial).certs) :=
      KeysOwned.identitiesIn (coherent.populated ▸ coherent.owned)
    rw [loadsOver, checkOwner_of_keysOwned, valid.loadOver_eq]
    rw [valid.loadOver_eq]
    exact owned.or identities

theorem Persisted.reloads (persisted : Persisted flash store) :
    loadProvisionedData flash store = (.success, store) := by
  have coherent := persisted.coherent
  obtain ⟨indices, _, loads⟩ := persisted.loadsOver coherent.owned
  rw [loads]
  congr 1
  ext1
  · rfl
  · rfl
  · simp only [coherent.populated, BitVec.or_assoc, BitVec.or_self]
  · simp only [ite_self]

end

/-! ## What was saved is what is loaded -/

theorem packedCert_empty {details : CertDetails} (empty : details.cert = none) : packedCert details = [] := by
  simp [packedCert, empty]

theorem CertDetails.Storable.packedCert_eq {details : CertDetails} (storable : details.Storable) {cert : List Byte}
    (holds : details.cert = some cert) : packedCert details = cert := by
  simp [packedCert, holds, List.take_of_length_le (Nat.le_of_eq (storable.sized cert holds).1)]

/-- The loop reads the packed certificates one after another, and goes on behind them. -/
theorem loadSlots_packedCerts {certs : Fin 7 → CertDetails} {data : List Byte} {indices : List (Fin 7)}
    (storable : ∀ i ∈ indices, (certs i).Storable)
    (sizes : ∀ i ∈ indices, sizeField data i = (certs i).certSize) (rest : List (Fin 7))
    (before after : List Byte) (packed : data = before ++ (packedCerts certs indices ++ after)) :
    loadSlots data (indices ++ rest) before.length ((packedCerts certs indices).length + after.length) =
      let later := loadSlots data rest (before.length + (packedCerts certs indices).length) after.length
      (later.1, (indices.map fun i => (i, certs i)) ++ later.2) := by
  induction indices generalizing before with
  | nil =>
    change loadSlots data rest before.length (0 + after.length) = loadSlots data rest before.length after.length
    rw [Nat.zero_add]
  | cons i indices ih =>
    obtain ⟨first, storable⟩ := List.forall_mem_cons.mp storable
    obtain ⟨size, sizes⟩ := List.forall_mem_cons.mp sizes
    have whole : packedCerts certs (i :: indices) = packedCert (certs i) ++ packedCerts certs indices := rfl
    rw [whole] at packed ⊢
    simp only [List.cons_append, loadSlots, size, List.map_cons]
    cases holds : (certs i).cert with
    | none =>
      have zero := first.empty holds
      have isEmpty : certs i = .empty := by
        cases details : certs i
        simp_all [CertDetails.empty]
      rw [packedCert_empty holds, List.nil_append] at packed
      rw [if_pos zero, packedCert_empty holds, List.nil_append, ih storable sizes before packed, isEmpty]
    | some cert =>
      obtain ⟨length, positive⟩ := first.sized cert holds
      have isCert := CertDetails.Storable.packedCert_eq first holds
      rw [isCert, List.append_assoc] at packed
      have found : sliceAt data before.length (certs i).certSize = cert := by
        rw [packed, sliceAt_append_right (Nat.le_refl _), Nat.sub_self, sliceAt_zero_append length]
      have later := ih storable sizes (before ++ cert) (by rw [packed, List.append_assoc])
      rw [List.length_append, length] at later
      have remaining : (cert ++ packedCerts certs indices).length + after.length - (certs i).certSize =
          (packedCerts certs indices).length + after.length := by
        rw [List.length_append, length]
        omega
      have position : before.length + (cert ++ packedCerts certs indices).length =
          before.length + (certs i).certSize + (packedCerts certs indices).length := by
        rw [List.length_append, length]
        omega
      rw [isCert, if_neg (Nat.ne_of_gt positive), if_neg (by rw [List.length_append, length]; omega), found, remaining,
        position, later]
      cases details : certs i
      simp_all

theorem sizeField_encode (store : CertStore) {i : Fin 7} (fits : (store.certs i).certSize < 2 ^ 16) :
    sizeField store.encode i = (store.certs i).certSize := by
  have inside : i.val < (List.finRange 7).length := by simp
  have item : (List.finRange 7).get ⟨i.val, inside⟩ = i := by simp
  have small : (store.certs ((List.finRange 7).get ⟨i.val, inside⟩)).certSize < 256 ^ 2 := by
    rw [item]
    exact fits
  have field := fieldAt_flatMap (fun i => (store.certs i).certSize) inside small
    (littleEndian 4 store.version ++ (littleEndian 4 store.lsv ++ packedCerts store.certs (List.finRange 7)))
  rw [item] at field
  have offset : 10 + 2 * i.val - 8 - 2 = 2 * i.val := by omega
  rw [sizeField, encode, fieldAt_append_right (by simp; omega), fieldAt_append_right (by simp; omega)]
  simpa [certSizes, offset] using field

theorem length_certSizes (certs : Fin 7 → CertDetails) : (certSizes certs (List.finRange 7)).length = 14 := by
  simp [certSizes, List.length_flatMap]

theorem fieldAt_encode_version (store : CertStore) (fits : store.version < 2 ^ 32) :
    fieldAt store.encode 24 4 = store.version := by
  rw [encode, fieldAt_append_right (by simp), fieldAt_append_right (by simp),
    fieldAt_append_right (by simp [length_certSizes])]
  simp only [length_littleEndian, List.length_cons, List.length_nil, length_certSizes]
  exact fieldAt_littleEndian fits _

theorem fieldAt_encode_lsv (store : CertStore) (fits : store.lsv < 2 ^ 32) :
    fieldAt store.encode 28 4 = store.lsv := by
  rw [encode, fieldAt_append_right (by simp), fieldAt_append_right (by simp),
    fieldAt_append_right (by simp [length_certSizes]), fieldAt_append_right (by simp [length_certSizes])]
  simp only [length_littleEndian, List.length_cons, List.length_nil, length_certSizes]
  exact fieldAt_littleEndian fits _

def Content.ofStore (store : CertStore) : Content :=
  ⟨store.version, store.lsv, (List.finRange 7).map fun i => (i, store.certs i)⟩

theorem Coherent.loadOver_ofStore {store : CertStore} (coherent : store.Coherent) :
    (Content.ofStore store).loadOver .initial = store := by
  have distinct : ((Content.ofStore store).slots.map Prod.fst).Nodup := by
    simpa [Content.ofStore, Function.comp_def] using List.nodup_finRange 7
  ext1
  · exact Content.loadOver_version _ _
  · exact Content.loadOver_lsv _ _
  · rw [coherent.populated, Content.loadOver, foldl_install_populated]
    rfl
  · funext i
    have mem : (i, store.certs i) ∈ (Content.ofStore store).slots := by simp [Content.ofStore]
    exact foldl_install_slot _ distinct mem

section

variable (store : CertStore)

theorem fieldAt_encode_signature : fieldAt store.encode 0 8 = internalVarSignature := fieldAt_littleEndian (by decide) _

theorem byteAt_encode_headerVersion : byteAt store.encode 8 = 2 := by
  rw [encode, byteAt_append_right (by simp)]
  simp

theorem byteAt_encode_maxCerts : byteAt store.encode 9 = 7 := by
  rw [encode, byteAt_append_right (by simp)]
  simp

variable {store}

/-- The loop over a saved store finds its slots, up to the first that the variable cannot hold. -/
theorem loadSlots_encode {indices rest : List (Fin 7)} (all : List.finRange 7 = indices ++ rest)
    (storable : ∀ i ∈ indices, (store.certs i).Storable) :
    let later := loadSlots store.encode rest (32 + (packedCerts store.certs indices).length)
      (packedCerts store.certs rest).length
    loadSlots store.encode (List.finRange 7) 32 (store.encode.length - 32) =
      (later.1, (indices.map fun i => (i, store.certs i)) ++ later.2) := by
  have packed : packedCerts store.certs (List.finRange 7) =
      packedCerts store.certs indices ++ packedCerts store.certs rest := by
    rw [all, packedCerts, List.flatMap_append]
    rfl
  have header : store.encode = littleEndian 8 internalVarSignature ++ ([2, 7] ++ (certSizes store.certs (List.finRange 7) ++
      (littleEndian 4 store.version ++ littleEndian 4 store.lsv))) ++
        (packedCerts store.certs indices ++ packedCerts store.certs rest) := by
    simp [encode, packed]
  have found := loadSlots_packedCerts storable
    (fun i mem => sizeField_encode store (storable i mem).fits) rest _ _ header
  have length := congrArg List.length header
  rw [List.length_append] at length
  simp only [List.length_append, length_littleEndian, List.length_cons, List.length_nil, length_certSizes] at length found
  rw [length, all]
  simpa using found

end

theorem Coherent.persisted {store : CertStore} (coherent : store.Coherent) :
    Persisted (some ⟨internalVarAttributes, store.encode⟩) store := by
  have signature := store.fieldAt_encode_signature
  have headerVersion := store.byteAt_encode_headerVersion
  have maxCerts := store.byteAt_encode_maxCerts
  have version := store.fieldAt_encode_version coherent.version_lt
  have lsv := store.fieldAt_encode_lsv coherent.lsv_lt
  have slots : loadSlots store.encode (List.finRange 7) 32 (store.encode.length - 32) =
      (.success, (List.finRange 7).map fun i => (i, store.certs i)) := by
    have found := loadSlots_encode (List.append_nil (List.finRange 7)).symm (fun i _ => coherent.storable i)
    rw [found]
    simp [loadSlots]
  have loaded := coherent.loadOver_ofStore
  simp only [Persisted, loadProvisionedData, ne_eq, not_true, if_false, signature, headerVersion, loadLayout, maxCerts,
    loadCerts_eq, layoutV2, slots, version, lsv]
  change checkOwner ((Content.ofStore store).loadOver .initial) = _
  rw [loaded, checkOwner_of_keysOwned coherent.owned]

end CertStore

end Dfci
