import Dfci.Identity.Revocation

/-! # What an identity packet makes of the machine -/

namespace Dfci

/-- What a packet can do: nothing but to the token list, change the slot of a key, or clear everything for the Owner key.
The approver is the one in whose name that is done. -/
inductive IdentityEffect (p : Platform) (m : Machine) (data : Packet) : Machine → Prop
  | kept (auth : AuthState) : IdentityEffect p m data { m with auth := auth }
  | provisioned (identity approver : Identity) (i : Fin 7) (auth : AuthState) (present : data.state = .dataPresent)
      (valid : validateIdentityPacket data = .success) (names : data.namedIdentity = some identity)
      (approval : Approval p m data identity approver) (isIndex : identity.toCertIndex = some i)
      (notCleared : ¬ (data.payloadSize = 0 ∧ identity = .signerOwner)) :
      IdentityEffect p m data
        { m with
          certs := m.certs.provision identity i data
          permissions := (m.permissions.identityChange p (.ok approver) identity
            (identityChangeType m.certs identity data)).2
          auth := auth }
  | clears (approver : Identity) (token : AuthToken) (before after : AuthState) (unenroll : data.payloadSize = 0)
      (names : data.namedIdentity = some .signerOwner)
      (approval : Approval p m data .signerOwner approver) (valid : token ≠ authTokenInvalid)
      (stands : before.getIdentityProperties token = .ok approver) :
      IdentityEffect p m data
        { (({ m with auth := before } : Machine).clearDfci p token).2 with auth := after }

section

variable {p : Platform} {m : Machine} {data : Packet}

theorem IdentityEffect.withAuth {after : Machine} (effect : IdentityEffect p m data after)
    (auth : AuthState) : IdentityEffect p m data { after with auth := auth } := by
  cases effect with
  | kept => exact .kept auth
  | provisioned identity approver i _ present valid names approval isIndex notCleared =>
    exact .provisioned identity approver i auth present valid names approval isIndex notCleared
  | clears approver token before _ unenroll names approval valid stands =>
    exact .clears approver token before auth unenroll names approval valid stands

/-- Unless it clears everything, an approved packet changes the slot, and the permissions in the approver's name. -/
theorem applyApproved_provisions {identity approver : Identity} {i : Fin 7} {auth : AuthState}
    {record : Packet} (isIndex : identity.toCertIndex = some i)
    (notCleared : ¬ (data.payloadSize = 0 ∧ identity = .signerOwner)) (same : record.SameRequest data)
    (stands : auth.getIdentityProperties record.authToken = .ok approver) :
    ∃ after, (applyApproved p { m with auth := auth } identity record).machine =
      { m with
        certs := m.certs.provision identity i data
        permissions := (m.permissions.identityChange p (.ok approver) identity
          (identityChangeType m.certs identity data)).2
        auth := after } := by
  have keeps : ¬ (record.payloadSize = 0 ∧ identity = .signerOwner) := by
    rw [same.payloadSize]
    exact notCleared
  simp only [applyApproved, applyProvisionData, if_neg keeps, isIndex, EfiStatus.isError_success,
    Bool.false_eq_true, if_false, stands, m.certs.provision_congr identity i same,
    identityChangeType_congr m.certs identity same]
  generalize m.permissions.identityChange p (.ok approver) identity
    (identityChangeType m.certs identity data) = change
  obtain ⟨status, perms⟩ := change
  cases status with
  | error code => exact ⟨auth, rfl⟩
  | success => exact ⟨_, rfl⟩

theorem IdentityOutcome.effect {minted : List TokenMapping} {applied : IdentityApplied}
    (outcome : IdentityOutcome p m data minted applied) : IdentityEffect p m data applied.machine := by
  cases outcome with
  | stopped status auth => exact .kept auth
  | approved identity approver auth record minted present valid names approval mints buffer held same isIdentity =>
    have stands : auth.getIdentityProperties record.authToken = .ok approver := mints.stands buffer
    obtain ⟨i, isIndex⟩ := Option.isSome_iff_exists.mp (Packet.toCertIndex_of_namedIdentity names)
    by_cases clears : data.payloadSize = 0 ∧ identity = .signerOwner
    · obtain ⟨unenroll, rfl⟩ := clears
      have type : identityChangeType m.certs .signerOwner record = .unenroll :=
        if_pos (same.payloadSize.trans unenroll)
      have cleared : ∀ after, IdentityEffect p m data
          { (({ m with auth := auth } : Machine).clearDfci p record.authToken).2 with auth := after } :=
        fun after => .clears approver record.authToken auth after unenroll names approval (mints.valid _ buffer) stands
      simp only [applyApproved, applyProvisionData, same.payloadSize, unenroll, and_self, if_true, type,
        PermissionState.identityChange_unenroll]
      split
      · exact cleared _
      · exact cleared _
    · obtain ⟨after, provisions⟩ := applyApproved_provisions isIndex clears same stands
      rw [provisions]
      exact .provisioned identity approver i after present valid names approval isIndex clears

theorem applyNewIdentityPacket_effect (p : Platform) (ui : UserInterface) (m : Machine) (data : Packet) :
    IdentityEffect p m data (applyNewIdentityPacket p ui m data).machine := by
  obtain ⟨minted, outcome⟩ := applyIdentitySteps_outcome p ui m data
  rw [applyNewIdentityPacket, IdentityApplied.cleanup]
  split
  · exact outcome.effect
  · exact outcome.effect.withAuth _

end

end Dfci
