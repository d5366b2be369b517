import Dfci.Identity.Approval
import Dfci.Manager.Decode

/-! # The tokens that an identity packet leaves and revokes -/

namespace Dfci

open ByteFields

def revokedBy (identity : Identity) (data : Packet) : Mask :=
  if data.payloadSize = 0 ∧ identity = .signerOwner then Mask.keys else identity.bit

section

variable {p : Platform} {m : Machine} {data : Packet} {identity : Identity}

theorem Packet.toCertIndex_of_namedIdentity (names : data.namedIdentity = some identity) :
    identity.toCertIndex.isSome = true := by
  simp only [Packet.namedIdentity, varIdentityToDfciIdentity] at names
  split at names <;> cases names <;> rfl

/-- The local user keeps his tokens. -/
theorem revokedBy_local (data : Packet) (isKey : identity.toCertIndex.isSome = true) :
    (revokedBy identity data).has .local = false := by
  rw [revokedBy]
  split
  · decide
  · cases identity <;> first | rfl | cases isKey

theorem revokedBy_self (data : Packet) (identity : Identity) : (revokedBy identity data).has identity = true := by
  rw [revokedBy]
  split
  · rename_i owner
    rw [owner.2]
    decide
  · cases identity <;> rfl

theorem PermissionState.identityChange_unenroll (p : Platform) (properties : Except EfiStatus Identity)
    (certIdentity : Identity) (perms : PermissionState) :
    perms.identityChange p properties certIdentity .unenroll = (.success, perms) := by
  obtain ⟨store, flash⟩ := perms
  cases store <;> rfl

theorem AuthState.disposeAllIdentityMappings_owner (auth : AuthState) :
    (auth.disposeAllIdentityMappings Mask.keys).disposeAllIdentityMappings Identity.signerOwner.bit =
      auth.disposeAllIdentityMappings Mask.keys := by
  have absorbed : ∀ identity : Identity,
      (!Mask.has Identity.signerOwner.bit identity && !Mask.keys.has identity) = !Mask.keys.has identity := by
    intro identity
    cases identity <;> rfl
  simp only [disposeAllIdentityMappings, List.filter_filter, absorbed]

/-- A packet that is applied revokes its tokens, and one that fails revokes none. -/
theorem applyApproved_auth (p : Platform) (m : Machine) (identity : Identity) (record : Packet) :
    let applied := applyApproved p m identity record
    (applied.status = .success ∧
      applied.machine.auth = m.auth.disposeAllIdentityMappings (revokedBy identity record)) ∨
      (applied.status ≠ .success ∧ applied.machine.auth = m.auth) := by
  simp only [applyApproved, applyProvisionData, revokedBy]
  split
  · rename_i owner
    have unenroll : identityChangeType m.certs identity record = .unenroll := if_pos owner.1
    have effect := m.clearDfci_effect p record.authToken
    simp only [unenroll, PermissionState.identityChange_unenroll]
    generalize m.clearDfci p record.authToken = cleared at effect
    cases effect with
    | refused | permissionsFailed | certsFailed => exact .inr ⟨(by simp), rfl⟩
    | cleared =>
      refine .inl ⟨rfl, ?_⟩
      simp only [owner.2]
      exact m.auth.disposeAllIdentityMappings_owner
  · split
    · exact .inr ⟨(by simp), rfl⟩
    · simp only [EfiStatus.isError_success, Bool.false_eq_true, if_false]
      split
      · exact .inr ⟨(by simp), rfl⟩
      · exact .inl ⟨rfl, rfl⟩

end

/-- What disposing a token in `CLEANUP` leaves. -/
def AuthState.cleanup (auth : AuthState) (token : AuthToken) : AuthState :=
  if token = authTokenInvalid then auth else (auth.disposeAuthToken token).2.2

structure TokensLeft (p : Platform) (m : Machine) (data : Packet) (applied : IdentityApplied)
    (minted : List TokenMapping) (token : AuthToken) (revoked : Mask) : Prop where
  left : ∃ auth, m.auth.Mints minted auth ∧
    applied.machine.auth = (auth.disposeAllIdentityMappings revoked).cleanup token
  buffer : token = data.authToken ∨ token = authTokenInvalid ∨ ∃ identity, ⟨token, identity⟩ ∈ minted
  held : ¬ ForgetsToken p m data → AuthState.Held minted token
  revokes : applied.status = .success ∧ applied.data.state = .dataComplete →
    ∃ identity, data.namedIdentity = some identity ∧ revoked = revokedBy identity data
  spares : ¬ (applied.status = .success ∧ applied.data.state = .dataComplete) → revoked = Mask.none

theorem AuthState.disposeAllIdentityMappings_none (auth : AuthState) :
    auth.disposeAllIdentityMappings Mask.none = auth := by
  simp [disposeAllIdentityMappings]

theorem IdentityApplied.cleanup_eq (applied : IdentityApplied) :
    applied.cleanup.status = applied.status ∧ applied.cleanup.data.state = applied.data.state ∧
      applied.cleanup.machine.auth = applied.machine.auth.cleanup applied.data.authToken := by
  rw [IdentityApplied.cleanup, AuthState.cleanup]
  split <;> exact ⟨rfl, rfl, rfl⟩

theorem applyApproved_complete (p : Platform) (m : Machine) (identity : Identity) (record : Packet)
    (succeeds : (applyApproved p m identity record).status = .success) :
    (applyApproved p m identity record).data.state = .dataComplete := by
  simp only [applyApproved] at succeeds ⊢
  split at succeeds
  · rename_i fails
    rw [succeeds] at fails
    cases fails
  · rename_i applies
    rw [if_neg applies]
    split at succeeds
    · cases succeeds
    · simp only [applyProvisionData] at applies ⊢
      split
      · rename_i owner
        simp only [if_pos owner] at applies
        simp only [Bool.not_eq_true] at applies
        simp [applies]
      · rename_i notOwner
        simp only [if_neg notOwner] at applies
        split at applies
        · simp at applies
        · rfl

theorem IdentityOutcome.tokens {p : Platform} {m : Machine} {data : Packet}
    {minted : List TokenMapping} {applied : IdentityApplied} (outcome : IdentityOutcome p m data minted applied) :
    ∃ revoked, TokensLeft p m data applied.cleanup minted applied.data.authToken revoked := by
  obtain ⟨sameStatus, sameState, sameAuth⟩ := applied.cleanup_eq
  cases outcome with
  | stopped status auth record minted mints buffer held unapplied same =>
    refine ⟨Mask.none, ⟨auth, mints, ?_⟩, buffer, held, ?_, fun _ => rfl⟩
    · rw [sameAuth, AuthState.disposeAllIdentityMappings_none]
    · rw [sameStatus, sameState]
      rintro ⟨succeeds, complete⟩
      cases (unapplied succeeds).symm.trans complete
  | approved identity approver auth record minted present valid names approval mints buffer held same isIdentity =>
    have complete := applyApproved_complete p { m with auth := auth } identity record
    have sameToken := applyApproved_authToken p { m with auth := auth } identity record
    have sameMask : revokedBy identity record = revokedBy identity data := by
      rw [revokedBy, revokedBy, same.payloadSize]
    rw [← sameToken] at buffer held
    rcases applyApproved_auth p { m with auth := auth } identity record with
      ⟨succeeds, disposed⟩ | ⟨fails, kept⟩
    · refine ⟨revokedBy identity data, ⟨auth, mints, ?_⟩, .inr (.inr ⟨approver, buffer⟩), held,
        fun _ => ⟨identity, names, rfl⟩, ?_⟩
      · rw [sameAuth, disposed, sameMask]
      · rw [sameStatus, sameState]
        exact fun unapplied => absurd ⟨succeeds, complete succeeds⟩ unapplied
    · refine ⟨Mask.none, ⟨auth, mints, ?_⟩, .inr (.inr ⟨approver, buffer⟩), held, ?_, fun _ => rfl⟩
      · rw [sameAuth, kept, AuthState.disposeAllIdentityMappings_none]
      · rw [sameStatus]
        exact fun both => absurd both.1 fails

theorem applyNewIdentityPacket_tokens (p : Platform) (ui : UserInterface) (m : Machine) (data : Packet) :
    ∃ minted token revoked, TokensLeft p m data (applyNewIdentityPacket p ui m data) minted token revoked := by
  obtain ⟨minted, outcome⟩ := applyIdentitySteps_outcome p ui m data
  obtain ⟨revoked, tokens⟩ := outcome.tokens
  exact ⟨minted, _, revoked, tokens⟩

/-- A packet never revokes the local user's tokens. -/
theorem TokensLeft.spares_local {p : Platform} {m : Machine} {data : Packet}
    {applied : IdentityApplied} {minted : List TokenMapping} {token : AuthToken} {revoked : Mask}
    (tokens : TokensLeft p m data applied minted token revoked) : revoked.has .local = false := by
  by_cases done : applied.status = .success ∧ applied.data.state = .dataComplete
  · obtain ⟨identity, names, isRevoked⟩ := tokens.revokes done
    rw [isRevoked]
    exact revokedBy_local data (Packet.toCertIndex_of_namedIdentity names)
  · rw [tokens.spares done]
    exact Mask.none_has .local

/-! ## The tokens that are revoked -/

structure RevokesOnly (before after : AuthState) (revoked : Mask) (own : AuthToken) : Prop where
  gone : ∀ token identity, after.getIdentityProperties token = .ok identity → revoked.has identity = false
  others : ∀ token identity, token ≠ own → before.getIdentityProperties token = .ok identity →
    revoked.has identity = false → after.getIdentityProperties token = .ok identity

theorem AuthState.mem_of_getIdentityProperties {auth : AuthState} {token : AuthToken} {identity : Identity}
    (stands : auth.getIdentityProperties token = .ok identity) : ⟨token, identity⟩ ∈ auth.mappings :=
  List.mem_of_find?_eq_some (getIdentityProperties_eq_ok.mp stands)

theorem AuthState.Mints.keeps {before after : AuthState} {minted : List TokenMapping} {token : AuthToken}
    {identity : Identity} (mints : before.Mints minted after) (stands : before.getIdentityProperties token = .ok identity) :
    after.getIdentityProperties token = .ok identity := by
  rw [getIdentityProperties_eq_ok] at stands ⊢
  rw [mints.mappings, List.find?_append, stands]
  rfl

theorem AuthState.mem_of_mem_cleanup {auth : AuthState} {token : AuthToken} {mapping : TokenMapping}
    (mem : mapping ∈ (auth.cleanup token).mappings) : mapping ∈ auth.mappings := by
  rw [AuthState.cleanup] at mem
  split at mem
  · exact mem
  · rw [mappings_disposeAuthToken] at mem
    exact List.mem_of_mem_eraseP mem

theorem RevokesOnly.disposeAllIdentityMappings (auth : AuthState) (mask : Mask) (own : AuthToken) :
    RevokesOnly auth (auth.disposeAllIdentityMappings mask) mask own :=
  ⟨fun _ _ => AuthState.disposeAllIdentityMappings_revokes,
    fun _ _ _ stands spared => AuthState.getIdentityProperties_disposeAllIdentityMappings stands spared⟩

theorem TokensLeft.revokesOnly {p : Platform} {m : Machine} {data : Packet}
    {applied : IdentityApplied} {minted : List TokenMapping} {token : AuthToken} {revoked : Mask}
    (tokens : TokensLeft p m data applied minted token revoked) :
    RevokesOnly m.auth applied.machine.auth revoked data.authToken := by
  obtain ⟨auth, mints, left⟩ := tokens.left
  rw [left]
  refine ⟨?_, ?_⟩
  · intro other identity stands
    have mem := AuthState.mem_of_mem_cleanup (AuthState.mem_of_getIdentityProperties stands)
    simpa using (List.mem_filter.mp mem).2
  · intro other identity notOwn stands spared
    have kept := AuthState.getIdentityProperties_disposeAllIdentityMappings (mints.keeps stands) spared
    rw [AuthState.cleanup]
    split
    · exact kept
    · rename_i valid
      rw [AuthState.getIdentityProperties_disposeAuthToken]
      · exact kept
      · -- the token that is disposed is the record's, or one that was not there before
        rcases tokens.buffer with own | invalid | ⟨created, isMinted⟩
        · rw [own]
          exact notOwn
        · exact absurd invalid valid
        · exact mints.fresh _ isMinted _ (AuthState.mem_of_getIdentityProperties stands)

/-! ## No token is left behind -/

def TokensKnown (before after : AuthState) : Prop :=
  ∀ mapping ∈ after.mappings, ∃ old ∈ before.mappings, old.token = mapping.token

theorem AuthState.mem_cleanup {auth : AuthState} {token : AuthToken} {mapping : TokenMapping}
    (inList : mapping ∈ auth.mappings) (other : mapping.token ≠ token) : mapping ∈ (auth.cleanup token).mappings := by
  rw [AuthState.cleanup]
  split
  · exact inList
  · rw [mappings_disposeAuthToken]
    exact (List.mem_eraseP_of_neg (by simpa using other)).mpr inList

section

variable {p : Platform} {m : Machine} {data : Packet} {applied : IdentityApplied}
  {minted : List TokenMapping} {token : AuthToken} {revoked : Mask}

/-- When all that was created is in the record, the cleanup disposes it. -/
theorem TokensLeft.known (tokens : TokensLeft p m data applied minted token revoked)
    (held : AuthState.Held minted token) : TokensKnown m.auth applied.machine.auth := by
  obtain ⟨auth, mints, left⟩ := tokens.left
  rw [left]
  match minted, mints, held with
  | [], mints, _ =>
    intro mapping mem
    have inAuth : mapping ∈ auth.mappings := (List.mem_filter.mp (AuthState.mem_of_mem_cleanup mem)).1
    rw [mints.mappings, List.append_nil] at inAuth
    exact ⟨mapping, inAuth, rfl⟩
  | [only], mints, held =>
    have isOnly := held only (List.mem_singleton_self _)
    have valid := mints.valid only (List.mem_singleton_self _)
    have fresh := mints.fresh only (List.mem_singleton_self _)
    rw [isOnly] at valid fresh
    rw [AuthState.cleanup, if_neg valid]
    intro mapping mem
    rw [AuthState.mappings_disposeAuthToken, AuthState.disposeAllIdentityMappings, mints.mappings, List.filter_append,
      List.eraseP_append_right] at mem
    · rcases List.mem_append.mp mem with old | new
      · exact ⟨mapping, (List.mem_filter.mp old).1, rfl⟩
      · -- the only new token is the one that is disposed
        rw [List.filter_singleton] at new
        cases revokes : revoked.has only.identity <;> simp [revokes, isOnly] at new
    · intro old isOld
      simpa using fresh old (List.mem_filter.mp isOld).1
  | first :: second :: rest, mints, held =>
    have distinct := mints.distinct
    have same := (held first List.mem_cons_self).trans (held second (by simp)).symm
    simp [same] at distinct

/-- A new token that is neither revoked nor in the record stays. -/
theorem TokensLeft.forgotten (tokens : TokensLeft p m data applied minted token revoked)
    {mapping : TokenMapping} (isMinted : mapping ∈ minted) (other : mapping.token ≠ token)
    (spared : revoked.has mapping.identity = false) : ¬ TokensKnown m.auth applied.machine.auth := by
  obtain ⟨auth, mints, left⟩ := tokens.left
  intro known
  have stays : mapping ∈ applied.machine.auth.mappings := by
    rw [left]
    refine AuthState.mem_cleanup (List.mem_filter.mpr ⟨?_, by simpa using spared⟩) other
    rw [mints.mappings]
    exact List.mem_append_right _ isMinted
  obtain ⟨old, isOld, same⟩ := known mapping stays
  exact mints.fresh mapping isMinted old isOld same

end

/-! ### What the user's answer does to the tokens before it -/

def decliningUser : UserInterface := {}

def confirmingUser : UserInterface where
  authDialog := fun _ _ _ => .ok none

theorem localGetAnswerFromUser_declining (p : Platform) (trustedCert : List Byte) (trustedCertSize : Nat)
    (token : AuthToken) (auth : AuthState) :
    (localGetAnswerFromUser p decliningUser trustedCert trustedCertSize token auth).1 ≠ .success := by
  simp only [localGetAnswerFromUser, decliningUser, Bool.not_true, Bool.false_eq_true, if_false, uiUnenrollRequest,
    uiEnrollRequest, askForPassword]
  repeat' split
  all_goals simp_all

/-- With a certificate and no password, the first token is not the one that the user's confirmation leaves. -/
theorem localGetAnswerFromUser_confirming (p : Platform) (trustedCert : List Byte) {trustedCertSize : Nat}
    (token : AuthToken) {auth : AuthState} (enroll : trustedCertSize ≠ 0)
    (noPassword : auth.adminPasswordSet.getD p.passwordStoreIsPasswordSet = false)
    (creates : auth.canCreateToken p = true) :
    let answer := localGetAnswerFromUser p confirmingUser trustedCert trustedCertSize token auth
    ∃ first more, AuthState.UserAsked p trustedCertSize auth answer (⟨first, .local⟩ :: more) ∧
      first ≠ answer.2.1 := by
  have succeeds := (AuthState.authWithPW_null_success_iff p).mpr ⟨noPassword, creates⟩
  have mints := AuthState.authWithPW_mints p auth .null 0
  simp only [localGetAnswerFromUser, confirmingUser, Bool.not_true, Bool.false_eq_true, if_false, if_neg enroll,
    uiEnrollRequest, succeeds, ne_eq, not_true, false_and, decide_false]
  generalize auth.authWithPW p .null 0 = first at succeeds mints ⊢
  obtain ⟨status, token, middle⟩ := first
  cases succeeds
  rcases mints with ⟨fails, _⟩ | ⟨_, mints⟩
  · exact absurd rfl fails
  · -- the dialog is answered at once, so the token it starts with does not matter
    have restarts : askForPassword p (fun _ => .ok none) (fun _ => 0) 3 0 token middle =
        askForPassword p (fun _ => .ok none) (fun _ => 0) 3 0 authTokenInvalid middle := by
      simp only [askForPassword]
    have valid := mints.valid _ (List.mem_singleton_self _)
    simp only [restarts]
    rcases AuthState.askForPassword_mints p (fun _ => .ok none) (fun _ => 0) 3 0 authTokenInvalid middle with
      ⟨refused, invalid, nothing⟩ | ⟨confirmed, more⟩
    · have isInvalid := invalid.elim id id
      refine ⟨token, [], ⟨mints.trans nothing, ?_, by simp [refused], .inl isInvalid, ?_⟩, ?_⟩
      · exact fun mapping mem => by rw [List.mem_singleton.mp mem]
      · simp [enroll, noPassword, creates]
      · rw [isInvalid]
        exact valid
    · refine ⟨token, [⟨_, .local⟩], ⟨mints.trans more, ?_, fun _ => by simp, .inr (by simp), ?_⟩, ?_⟩
      · intro mapping mem
        rcases List.mem_cons.mp mem with rfl | isSecond
        · rfl
        · rw [List.mem_singleton.mp isSecond]
      · simp [enroll, noPassword, creates]
      · apply more.fresh _ (List.mem_singleton_self _) ⟨token, .local⟩
        rw [mints.mappings]
        exact List.mem_append_right _ (List.mem_singleton_self _)

theorem ForgetsToken.exists_answer {p : Platform} {m : Machine} {data : Packet} (forgets : ForgetsToken p m data) :
    ∃ ui, ¬ TokensKnown m.auth (applyNewIdentityPacket p ui m data).machine.auth := by
  obtain ⟨identity, signedLength, permMask, asks, reason⟩ := forgets
  obtain ⟨token, auth, minted, validates, mints, origin⟩ := asks.validates
  cases origin with
  | signed signer _ _ signs creates forbidden =>
    -- the user says no, and the signer's token is no longer in the record
    refine ⟨decliningUser, ?_⟩
    have steps := applyIdentitySteps_asks p decliningUser m data asks.present asks.valid validates rfl
    obtain ⟨more, asked⟩ := AuthState.localGetAnswerFromUser_asked p decliningUser data.payloadBytes
      data.payloadSize token auth rfl
    have declined := localGetAnswerFromUser_declining p data.payloadBytes data.payloadSize token auth
    obtain ⟨outcome, isToken⟩ := IdentityOutcome.asked asks mints
      (.signed signer token auth signs creates forbidden) asked
    obtain ⟨revoked, tokens⟩ := outcome.tokens
    have distinct := (mints.trans asked.mints).distinct
    have buffer := asked.buffer
    rw [applyNewIdentityPacket, steps]
    generalize localGetAnswerFromUser p decliningUser data.payloadBytes data.payloadSize token auth = answer at *
    refine tokens.forgotten (List.mem_append_left _ (List.mem_singleton_self _)) ?_ ?_
    · rw [isToken]
      rcases buffer with invalid | inMore
      · rw [invalid]
        exact mints.valid _ (List.mem_singleton_self _)
      · intro same
        simp only [List.singleton_append, List.map_cons, List.nodup_cons, List.mem_map, not_exists, not_and] at distinct
        exact distinct.1 _ inMore same.symm
    · rw [tokens.spares]
      · exact Mask.none_has signer
      · rintro ⟨succeeds, _⟩
        obtain ⟨status, answered, after⟩ := answer
        cases status with
        | success => exact declined rfl
        | error code => rw [(IdentityApplied.cleanup_eq _).1] at succeeds; cases succeeds
  | unsigned none =>
    rcases reason with ⟨signs, creates⟩ | ⟨enroll, noPassword, creates⟩
    · obtain ⟨signer, isSigner⟩ := Option.isSome_iff_exists.mp signs
      exact absurd (none signer isSigner) (by simp [creates])
    · refine ⟨confirmingUser, ?_⟩
      have steps := applyIdentitySteps_asks p confirmingUser m data asks.present asks.valid validates rfl
      have same : (m.auth.withoutToken (data.signerFrom p m.certs signedLength)).adminPasswordSet =
          m.auth.adminPasswordSet := by
        rw [AuthState.withoutToken]
        split <;> rfl
      obtain ⟨first, more, asked, other⟩ := localGetAnswerFromUser_confirming p data.payloadBytes data.authToken
        enroll (by rw [same]; exact noPassword) creates
      obtain ⟨outcome, isToken⟩ := IdentityOutcome.asked asks mints (.unsigned none) asked
      obtain ⟨revoked, tokens⟩ := outcome.tokens
      rw [applyNewIdentityPacket, steps]
      refine tokens.forgotten (List.mem_append_right _ List.mem_cons_self) ?_ ?_
      · rw [isToken]
        exact other
      · exact tokens.spares_local

/-- Whatever the user answers, no token that was created while a packet was processed is left, unless one is created
before the user is asked and the answer takes its place in the packet's record. -/
theorem applyNewIdentityPacket_known_iff (p : Platform) (m : Machine) (data : Packet) :
    (∀ ui, TokensKnown m.auth (applyNewIdentityPacket p ui m data).machine.auth) ↔ ¬ ForgetsToken p m data := by
  constructor
  · intro known forgets
    obtain ⟨ui, unknown⟩ := forgets.exists_answer
    exact unknown (known ui)
  · intro remembers ui
    obtain ⟨minted, token, revoked, tokens⟩ := applyNewIdentityPacket_tokens p ui m data
    exact tokens.known (tokens.held remembers)

def enrolledMachine (p : Platform) (keys : List (Identity × Byte)) : Machine :=
  let certs := keys.foldl (fun certs key =>
    match key.1.toCertIndex with
    | none => certs
    | some i =>
      { certs.setCert i ⟨some [key.2], 1⟩ with
        populatedIdentities := certs.populatedIdentities ||| key.1.bit }) CertStore.initial
  { certs := certs
    certFlash := some ⟨internalVarAttributes, certs.encode⟩
    auth := .loaded 0
    permissions := (PermissionState.initAndSave p none).2
    settings := ⟨.empty, none⟩ }

/-- The Owner signs the removal of the Owner's key, the local user declines, and the Owner's token stays. -/
theorem ownerToken_left_behind : ¬ TokensKnown (enrolledMachine keyedPlatform [(.signerOwner, 1)]).auth
      (applyNewIdentityPacket keyedPlatform decliningUser (enrolledMachine keyedPlatform [(.signerOwner, 1)])
        (initializePacket keyedPlatform .identity (.ok (unenrollPacket 1 1))).data).machine.auth := by
  have owns : (applyNewIdentityPacket keyedPlatform decliningUser (enrolledMachine keyedPlatform [(.signerOwner, 1)])
      (initializePacket keyedPlatform .identity (.ok (unenrollPacket 1 1))).data).machine.auth.mappings =
        [⟨1, .signerOwner⟩] := by
    decide +kernel
  intro known
  obtain ⟨old, isOld, _⟩ := known ⟨1, .signerOwner⟩ (by rw [owns]; exact List.mem_singleton_self _)
  cases isOld

end Dfci
