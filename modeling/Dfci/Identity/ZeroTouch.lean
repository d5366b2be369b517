import Dfci.Identity.Effect
import Dfci.Permission.Sealed

/-! # Identity packets signed by Zero Touch

An Owner that Zero Touch enrolled is to be released by Zero Touch: the enrolment puts ZTD into the mask of
`Dfci.ZtdUnenroll.Enable`. The validation of an unenroll packet asks that mask for the key that is removed. -/

namespace Dfci


/-- The mask of `Dfci.ZtdUnenroll.Enable`. -/
def Machine.ztdUnenrollMask (m : Machine) : Mask :=
  match m.permissions.store with
  | none => Mask.none
  | some store => store.queryPermission ztdUnenrollId

def AcceptedWithoutUser (p : Platform) (m : Machine) (data : Packet) : Prop :=
  let answer := validateAndAuthenticatePendingProvisionData p m data
  answer.1 = .success ∧ answer.2.2.userConfirmationRequired = false

instance (p : Platform) (m : Machine) (data : Packet) :
    Decidable (AcceptedWithoutUser p m data) :=
  inferInstanceAs (Decidable (_ ∧ _))

structure ZtdSignedUnenroll (p : Platform) (m : Machine) (data : Packet) (identity : Identity) :
    Prop where
  unenroll : data.payloadSize = 0
  names : data.namedIdentity = some identity
  signed : ∃ signedLength permMask,
    checkPendingProvisionData p m identity { data with dfciIdentity := some identity } =
      .ok (signedLength, permMask) ∧
    data.signerFrom p m.certs signedLength = some .signerZtd
  creates : m.auth.canCreateToken p = true

/-- Zero Touch enrolls an Owner with its signature alone. -/
structure ZtdSignedEnrolment (p : Platform) (m : Machine) (data : Packet) : Prop where
  present : data.state = .dataPresent
  valid : validateIdentityPacket data = .success
  enrolls : data.payloadSize ≠ 0
  names : data.namedIdentity = some .signerOwner
  signed : ∃ signedLength permMask,
    checkPendingProvisionData p m .signerOwner { data with dfciIdentity := some .signerOwner } =
      .ok (signedLength, permMask) ∧
    data.signerFrom p m.certs signedLength = some .signerZtd
  accepted : AcceptedWithoutUser p m data

section

variable {p : Platform} {m : Machine} {data : Packet} {identity : Identity}

/-- The user is not asked exactly when the mask has the key that is removed. -/
theorem ZtdSignedUnenroll.accepted_iff (packet : ZtdSignedUnenroll p m data identity) :
    AcceptedWithoutUser p m data ↔ m.ztdUnenrollMask.has identity = true := by
  obtain ⟨signedLength, permMask, checks, signs⟩ := packet.signed
  obtain ⟨_, store, _, isStore, _⟩ := (checkPendingProvisionData_checks checks).mask
  have names := packet.names
  rw [Packet.namedIdentity] at names
  have authenticates := AuthState.authWithSignedData_mints p m.auth m.certs
    (({ data with dfciIdentity := some identity } : Packet).bytes.take signedLength)
    (({ data with dfciIdentity := some identity } : Packet).certificateAt signedLength) data.authToken
  simp only [AcceptedWithoutUser, validateAndAuthenticatePendingProvisionData, names, checks, Machine.ztdUnenrollMask,
    isStore]
  generalize authWithSignedData p m.certs m.auth _ _ _ = answer at authenticates ⊢
  obtain ⟨status, token, auth⟩ := answer
  rcases authenticates with ⟨code, _, _, _, none⟩ | ⟨signer, isSigner, _, succeeds, mints⟩
  · exact absurd (none _ signs) (by simp [packet.creates])
  · cases succeeds
    cases isSigner.symm.trans signs
    have stands : auth.getIdentityProperties token = .ok .signerZtd := mints.stands (List.mem_singleton_self _)
    simp only [stands, signerMayProvision, packet.unenroll, and_self, if_true, Option.any_some]
    by_cases has : (store.queryPermission ztdUnenrollId).has identity = true
    · simp [has]
    · simp only [has, Bool.false_eq_true, if_false, iff_false]
      rw [localMayProvision]
      split <;> simp

/-- The enrolment writes the grant: the Owner's key is installed, and the mask is exactly ZTD. -/
theorem ZtdSignedEnrolment.grants (enrolment : ZtdSignedEnrolment p m data) (ui : UserInterface) :
    let enrolled := (applyNewIdentityPacket p ui m data).machine
    enrolled.certs = m.certs.provision .signerOwner certOwnerIndex data ∧
      enrolled.permissions.Fixed ztdUnenrollId Identity.signerZtd.bit := by
  obtain ⟨signedLength, permMask, checks, signs⟩ := enrolment.signed
  have accepted := enrolment.accepted
  have validation := validateAndAuthenticatePendingProvisionData_validation p m data
  rw [AcceptedWithoutUser] at accepted
  generalize validates : validateAndAuthenticatePendingProvisionData p m data = answer at accepted validation
  cases validation with
  | refused => cases accepted.1
  | asks => cases accepted.2
  | signed identity length mask signer token auth names otherChecks otherSigns allowed mints =>
    cases enrolment.names.symm.trans names
    cases checks.symm.trans otherChecks
    cases signs.symm.trans otherSigns
    have stands : auth.getIdentityProperties token = .ok .signerZtd := mints.stands (List.mem_singleton_self _)
    obtain ⟨after, provisions⟩ := @applyApproved_provisions p m data .signerOwner .signerZtd certOwnerIndex
      auth { data.authenticated .signerOwner token false with state := .dataUserApproved } rfl
      (fun cleared => enrolment.enrolls cleared.1) ⟨rfl, rfl, rfl, rfl, rfl⟩ stands
    obtain ⟨_, store, _, isStore, _⟩ := (checkPendingProvisionData_checks checks).mask
    have enrolls := identityChangeType_ne_unenroll m.certs .signerOwner enrolment.enrolls
    have granted : (m.permissions.identityChange p (.ok .signerZtd) .signerOwner
        (identityChangeType m.certs .signerOwner data)).2.Fixed ztdUnenrollId Identity.signerZtd.bit := by
      simp only [PermissionState.identityChange, isStore, PermissionStore.identityChange, if_neg enrolls, if_true]
      exact ⟨_, rfl, (PermissionStore.fixed_ztdEnrolled _).2.1⟩
    have steps := applyIdentitySteps_signed p ui m data enrolment.present enrolment.valid validates
    rw [applyNewIdentityPacket, IdentityApplied.cleanup]
    split
    · rw [steps, provisions]
      exact ⟨rfl, granted⟩
    · simp only [steps, provisions, true_and]
      exact granted

end

end Dfci
