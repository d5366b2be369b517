import Dfci.Identity.Packet

/-! # What an enroll packet does -/

namespace Dfci

open ByteFields

/-! ## A certificate in its slot -/

theorem Mask.clear_or_bit (mask : Mask) (identity : Identity) :
    mask &&& ~~~identity.bit ||| identity.bit = mask ||| identity.bit := by
  revert mask
  cases identity <;> decide +kernel

theorem Mask.has_or_bit (mask : Mask) (identity : Identity) : (mask ||| identity.bit).has identity = true := by
  rw [Mask.has_or]
  cases identity <;> simp [Mask.has, Identity.bit]

structure Packet.CarriesCert (data : Packet) : Prop where
  payload : data.payload.isSome = true
  length : data.payloadBytes.length = data.payloadSize
  positive : 0 < data.payloadSize
  fits : data.payloadSize < 2 ^ 16

theorem carriesCert_of_validateIdentityPacket {data : Packet} (valid : validateIdentityPacket data = .success)
    (enroll : data.payloadSize ≠ 0) : data.CarriesCert := by
  simp only [validateIdentityPacket, maxAllowableDfciApplyVarSize] at valid
  repeat' split at valid
  all_goals first | contradiction | skip
  rename_i small longer _ _ _ inside
  have within : data.payloadInside data.signedDataLength = true := by simpa [enroll] using inside
  rw [Packet.payloadInside] at within
  cases pointer : data.payload with
  | none => simp [pointer] at within
  | some offset =>
    simp only [pointer, Bool.and_eq_true, decide_eq_true_eq] at within
    have size : data.packetSize = data.bytes.length := rfl
    refine ⟨by simp [pointer], ?_, by omega, by omega⟩
    simp only [Packet.payloadBytes, pointer, List.length_take, List.length_drop]
    omega

namespace CertStore

def keyBit (identity : Identity) (details : CertDetails) : Mask :=
  if details.cert.isSome then identity.bit else 0

theorem has_keyBit (identity other : Identity) (details : CertDetails) :
    (keyBit identity details).has other = (details.cert.isSome && decide (identity = other)) := by
  rw [keyBit]
  cases details.cert.isSome <;> cases identity <;> cases other <;> rfl

/-- The reserved slots have no bit. -/
theorem identitiesIn_eq (certs : Fin 7 → CertDetails) :
    identitiesIn certs = keyBit .signerUser (certs 0) ||| (keyBit .signerUser1 (certs 1) |||
      (keyBit .signerUser2 (certs 2) ||| (keyBit .signerOwner (certs 3) ||| keyBit .signerZtd (certs 4)))) := by
  have all : List.finRange 7 = [0, 1, 2, 3, 4, 5, 6] := by decide
  have reserved : ∀ details, slotBit (5, details) = 0 ∧ slotBit (6, details) = 0 := by
    intro details
    simp [slotBit, certIndexToDfciIdentity]
  simp only [identitiesIn, all, slotBits, List.map_cons, List.map_nil, List.foldr_cons, List.foldr_nil, reserved]
  change _ ||| (_ ||| (_ ||| (_ ||| (_ ||| 0#8)))) = _
  rw [BitVec.or_zero]
  rfl

theorem has_identitiesIn {identity : Identity} {i : Fin 7} (isIndex : identity.toCertIndex = some i)
    (certs : Fin 7 → CertDetails) : (identitiesIn certs).has identity = (certs i).cert.isSome := by
  simp only [identitiesIn_eq, Mask.has_or, has_keyBit]
  cases identity <;> cases isIndex <;> simp [certOwnerIndex, certZtdIndex]

theorem identitiesIn_update {identity : Identity} {i : Fin 7} (isIndex : identity.toCertIndex = some i)
    (certs : Fin 7 → CertDetails) (details : CertDetails) : identitiesIn (Function.update certs i details) =
      identitiesIn certs &&& ~~~identity.bit ||| keyBit identity details := by
  simp only [identitiesIn_eq, keyBit]
  cases identity <;> cases isIndex
  all_goals
    simp only [Function.update_apply, certOwnerIndex, certZtdIndex, Fin.reduceEq, if_true, if_false]
    generalize (certs 0).cert.isSome = user
    generalize (certs 1).cert.isSome = user1
    generalize (certs 2).cert.isSome = user2
    generalize (certs 3).cert.isSome = owner
    generalize (certs 4).cert.isSome = ztd
    generalize details.cert.isSome = present
    revert user user1 user2 owner ztd present
    decide +kernel

/-- A certificate in the slot of a key, with the key's bit. -/
theorem Coherent.install {store : CertStore} (coherent : store.Coherent) {identity : Identity} {i : Fin 7}
    {cert : List Byte} {certSize : Nat} (isIndex : identity.toCertIndex = some i)
    (storable : CertDetails.Storable ⟨some cert, certSize⟩)
    (owned : Mask.userKeys.has identity = true → store.populatedIdentities.has .signerOwner = true) :
    Coherent { store.setCert i ⟨some cert, certSize⟩ with
      populatedIdentities := store.populatedIdentities ||| identity.bit } where
  version_lt := coherent.version_lt
  lsv_lt := coherent.lsv_lt
  storable := by
    intro other
    by_cases same : other = i
    · subst same
      simp only [setCert, Function.update_self]
      exact storable
    · simp only [setCert, Function.update_of_ne same]
      exact coherent.storable other
  populated := by
    have bits : identitiesIn (store.setCert i ⟨some cert, certSize⟩).certs =
        identitiesIn store.certs ||| identity.bit :=
      (identitiesIn_update isIndex _ _).trans (Mask.clear_or_bit _ _)
    simp only [bits]
    rw [coherent.populated, BitVec.or_assoc]
  owned := by
    simp only
    by_cases isUser : Mask.userKeys.has identity = true
    · intro _
      rw [Mask.has_or, owned isUser, Bool.true_or]
    · refine coherent.owned.or fun users => ?_
      cases identity <;> first | exact absurd rfl isUser | exact absurd rfl users

/-- A certificate from a packet fills its slot and sets its bit. -/
theorem provision_eq (certs : CertStore) (identity : Identity) (i : Fin 7) {data : Packet}
    (carries : data.CarriesCert) : certs.provision identity i data =
      { certs.setCert i ⟨some data.payloadBytes, data.payloadSize⟩ with
        populatedIdentities := certs.populatedIdentities ||| identity.bit } := by
  simp only [provision, if_pos carries.payload, if_pos carries.positive]
  split
  · simp [setCert, Mask.clear_or_bit]
  · rfl

end CertStore

/-! ## The outcomes -/

theorem CertStore.provision_congr (certs : CertStore) (identity : Identity) (i : Fin 7)
    {first second : Packet} (same : first.SameRequest second) :
    certs.provision identity i first = certs.provision identity i second := by
  simp only [CertStore.provision, same.payload, same.payloadSize, same.payloadBytes]

/-- What a packet with a certificate can do: be turned away, wait for the user, or be installed. An installed packet
fails when the permission manager refuses the change. -/
inductive EnrollEffect (p : Platform) (ui : UserInterface) (m : Machine) (data : Packet) :
    IdentityApplied → Prop
  | rejected (code : Nat) (auth : AuthState) (record : Packet) (same : record.SameRequest data)
      (settled : record.state.isSettled = true) (reported : record.statusCode.isError = true) :
      EnrollEffect p ui m data ⟨.error code, { m with auth := auth }, record⟩
  | delayed (auth : AuthState) (record : Packet) (same : record.SameRequest data)
      (waits : record.state = .dataDelayedProcessing) (unavailable : ui.available = false) :
      EnrollEffect p ui m data ⟨.success, { m with auth := auth }, record⟩
  | installed (identity : Identity) (i : Fin 7) (properties : Except EfiStatus Identity) (auth : AuthState)
      (change : EfiStatus × PermissionState) (record : Packet)
      (isIndex : identity.toCertIndex = some i) (carries : data.CarriesCert)
      (owned : identity = .signerOwner ∨ m.certs.populatedIdentities.has .signerOwner = true)
      (changes : m.permissions.identityChange p properties identity
        (identityChangeType m.certs identity data) = change)
      (same : record.SameRequest { data with lkgDirty := true }) (settled : record.state.isSettled = true)
      (reported : record.statusCode = change.1) :
      EnrollEffect p ui m data
        ⟨change.1, { m with
          certs := m.certs.provision identity i data, permissions := change.2, auth := auth }, record⟩

section

variable {p : Platform} {ui : UserInterface} {m : Machine} {data : Packet}

theorem EnrollEffect.cleanup {applied : IdentityApplied} (effect : EnrollEffect p ui m data applied) :
    EnrollEffect p ui m data applied.cleanup := by
  rw [IdentityApplied.cleanup]
  split
  · exact effect
  · cases effect with
    | rejected code auth record same settled reported =>
      exact .rejected code _ _ ⟨same.packet, same.payload, same.payloadSize, same.unenroll, same.lkgDirty⟩ settled reported
    | delayed auth record same waits unavailable =>
      exact .delayed _ _ ⟨same.packet, same.payload, same.payloadSize, same.unenroll, same.lkgDirty⟩ waits unavailable
    | installed identity i properties auth change record isIndex carries owned changes same settled reported =>
      exact .installed identity i properties _ change _ isIndex carries owned changes
        ⟨same.packet, same.payload, same.payloadSize, same.unenroll, same.lkgDirty⟩ settled reported

theorem localMayProvision_cases (auth : AuthState) (data : Packet) (permMask : Mask) :
    (localMayProvision auth data permMask = (.accessDenied, auth, data.fail .dataAuthFailed .accessDenied)) ∨
    localMayProvision auth data permMask = (.success, auth,
      { data with userConfirmationRequired := true, statusCode := .success, state := .dataAuthenticated }) := by
  rw [localMayProvision]
  split
  · exact .inr rfl
  · exact .inl rfl

/-- Authentication ends with an error in the record, or with the identity that is to be changed. -/
theorem validateAndAuthenticatePendingProvisionData_cases (p : Platform) (m : Machine) (data : Packet) :
    (∃ code auth record, validateAndAuthenticatePendingProvisionData p m data = (.error code, auth, record) ∧
      record.SameRequest data ∧ record.state.isSettled = true ∧ record.statusCode.isError = true) ∨
    ∃ identity auth record, validateAndAuthenticatePendingProvisionData p m data = (.success, auth, record) ∧
      record.SameRequest data ∧ record.dfciIdentity = some identity ∧ identity.toCertIndex.isSome = true ∧
      (identity = .signerOwner ∨ m.certs.populatedIdentities.has .signerOwner = true) := by
  rw [validateAndAuthenticatePendingProvisionData]
  split
  · exact .inl ⟨_, _, _, rfl, ⟨rfl, rfl, rfl, rfl, rfl⟩, rfl, rfl⟩
  · rename_i identity known
    have hasIndex : identity.toCertIndex.isSome = true := by
      simp only [varIdentityToDfciIdentity] at known
      split at known <;> cases known <;> rfl
    simp only
    split
    · rename_i failure fails
      obtain ⟨state, status, isError, settled⟩ := failure
      cases status with
      | success => contradiction
      | error code => exact .inl ⟨_, _, _, rfl, ⟨rfl, rfl, rfl, rfl, rfl⟩, settled, rfl⟩
    · rename_i signedLength permMask checks
      have owned := (checkPendingProvisionData_checks checks).owned
      -- what the local user may decide, whatever became of the signature
      have locally : ∀ auth token, (∃ code after record,
          localMayProvision auth { data with dfciIdentity := some identity, authToken := token } permMask =
            (.error code, after, record) ∧
          record.SameRequest data ∧ record.state.isSettled = true ∧ record.statusCode.isError = true) ∨
          ∃ after record,
            localMayProvision auth { data with dfciIdentity := some identity, authToken := token } permMask =
              (.success, after, record) ∧
            record.SameRequest data ∧ record.dfciIdentity = some identity := by
        intro auth token
        rcases localMayProvision_cases auth { data with dfciIdentity := some identity, authToken := token } permMask with
          denied | asks
        · rw [denied]
          exact .inl ⟨_, _, _, rfl, ⟨rfl, rfl, rfl, rfl, rfl⟩, rfl, rfl⟩
        · rw [asks]
          exact .inr ⟨_, _, rfl, ⟨rfl, rfl, rfl, rfl, rfl⟩, rfl⟩
      split
      · rename_i auth _
        rcases locally auth data.authToken with ⟨code, after, record, denied, rest⟩ | ⟨after, record, asks, same, names⟩
        · exact .inl ⟨code, after, record, denied, rest⟩
        · exact .inr ⟨identity, after, record, asks, same, names, hasIndex, owned⟩
      · rename_i token auth _
        split
        · exact .inl ⟨_, _, _, rfl, ⟨rfl, rfl, rfl, rfl, rfl⟩, rfl, rfl⟩
        · split
          · exact .inr ⟨identity, _, _, rfl, ⟨rfl, rfl, rfl, rfl, rfl⟩, rfl, hasIndex, owned⟩
          · rcases locally auth token with ⟨code, after, record, denied, rest⟩ | ⟨after, record, asks, same, names⟩
            · exact .inl ⟨code, after, record, denied, rest⟩
            · exact .inr ⟨identity, after, record, asks, same, names, hasIndex, owned⟩

theorem approve_cases (p : Platform) (ui : UserInterface) (auth : AuthState) (data : Packet) :
    (∃ code after record, approve p ui auth data = (.error code, after, record) ∧ record.SameRequest data ∧
      record.state.isSettled = true ∧ record.statusCode.isError = true) ∨
    ∃ after record, approve p ui auth data = (.success, after, record) ∧ record.SameRequest data ∧
      record.dfciIdentity = data.dfciIdentity := by
  rw [approve]
  split
  · exact .inr ⟨_, _, rfl, ⟨rfl, rfl, rfl, rfl, rfl⟩, rfl⟩
  · split
    · exact .inr ⟨_, _, rfl, ⟨rfl, rfl, rfl, rfl, rfl⟩, rfl⟩
    · refine .inl ⟨_, _, _, rfl, ?_⟩
      split <;> exact ⟨⟨rfl, rfl, rfl, rfl, rfl⟩, rfl, rfl⟩

theorem identityChangeType_congr (certs : CertStore) (identity : Identity) {first second : Packet}
    (same : first.SameRequest second) :
    identityChangeType certs identity first = identityChangeType certs identity second := by
  simp only [identityChangeType, same.payloadSize]

theorem identityChangeType_ne_unenroll (certs : CertStore) (identity : Identity) (enrolls : data.payloadSize ≠ 0) :
    identityChangeType certs identity data ≠ .unenroll := by
  rw [identityChangeType, if_neg enrolls]
  split <;> simp

theorem applyApproved_enroll {identity : Identity} {i : Fin 7} {auth : AuthState} {record : Packet}
    (isIndex : identity.toCertIndex = some i) (carries : data.CarriesCert)
    (owned : identity = .signerOwner ∨ m.certs.populatedIdentities.has .signerOwner = true)
    (same : record.SameRequest data) :
    EnrollEffect p ui m data (applyApproved p { m with auth := auth } identity record) := by
  have enroll : ¬ (record.payloadSize = 0 ∧ identity = .signerOwner) := by
    rw [same.payloadSize]
    exact fun both => absurd both.1 (Nat.ne_of_gt carries.positive)
  have provisions := m.certs.provision_congr identity i same
  have type := identityChangeType_congr m.certs identity same
  rw [applyApproved]
  simp only [applyProvisionData, if_neg enroll, isIndex, EfiStatus.isError_success, Bool.false_eq_true, if_false]
  rw [provisions, type]
  split
  · rename_i code perms changes
    exact .installed identity i _ auth (.error code, perms) _ isIndex carries owned changes
      ⟨same.packet, same.payload, same.payloadSize, same.unenroll, rfl⟩ rfl rfl
  · rename_i perms changes
    exact .installed identity i _ _ (.success, perms) _ isIndex carries owned changes
      ⟨same.packet, same.payload, same.payloadSize, same.unenroll, rfl⟩ rfl rfl

/-- A new packet with a certificate is turned away, waits for the user, or is installed. -/
theorem applyNewIdentityPacket_enroll (p : Platform) (ui : UserInterface) (m : Machine)
    (present : data.state = .dataPresent) (enroll : data.payloadSize ≠ 0) :
    EnrollEffect p ui m data (applyNewIdentityPacket p ui m data) := by
  apply EnrollEffect.cleanup
  rw [applyIdentitySteps, if_neg (not_not_intro present)]
  cases valid : validateIdentityPacket data with
  | error code => exact .rejected code m.auth _ ⟨rfl, rfl, rfl, rfl, rfl⟩ rfl rfl
  | success =>
    have carries := carriesCert_of_validateIdentityPacket valid enroll
    rcases validateAndAuthenticatePendingProvisionData_cases p m data with
      ⟨code, auth, record, fails, same, settled, reported⟩ |
      ⟨identity, auth, record, authenticates, same, names, hasIndex, owned⟩
    · simp only [fails]
      exact .rejected code auth record same settled reported
    · obtain ⟨i, isIndex⟩ := Option.isSome_iff_exists.mp hasIndex
      simp only [authenticates]
      split
      · rename_i waits
        rw [Bool.and_eq_true, Bool.not_eq_true'] at waits
        exact .delayed auth _ ⟨same.packet, same.payload, same.payloadSize, same.unenroll, same.lkgDirty⟩ rfl waits.1
      · rcases approve_cases p ui auth record with
          ⟨code, after, rejected, fails, sameRecord, settled, reported⟩ | ⟨after, approved, approves, sameRecord, keeps⟩
        · simp only [fails]
          exact .rejected code after rejected (sameRecord.trans same) settled reported
        · simp only [approves, keeps, names]
          exact applyApproved_enroll isIndex carries owned (sameRecord.trans same)

end

end Dfci
