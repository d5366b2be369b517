import Dfci.Identity.Authenticate

/-! # The token list

Tokens are created one at a time and disposed one at a time or by identity. What was created on the way from one state
of the list to another is the list of mappings that was appended. -/

namespace Dfci

namespace AuthState

/-- `after` is `before` with new tokens at its end. -/
structure Mints (before : AuthState) (minted : List TokenMapping) (after : AuthState) : Prop where
  mappings : after.mappings = before.mappings ++ minted
  valid : ∀ mapping ∈ minted, mapping.token ≠ authTokenInvalid
  distinct : (minted.map TokenMapping.token).Nodup
  fresh : ∀ mapping ∈ minted, ∀ old ∈ before.mappings, old.token ≠ mapping.token

def Held (minted : List TokenMapping) (token : AuthToken) : Prop :=
  ∀ mapping ∈ minted, mapping.token = token

section

variable {before middle after : AuthState} {minted first second : List TokenMapping}

theorem Mints.nothing (same : after.mappings = before.mappings) : Mints before [] after :=
  ⟨by rw [same, List.append_nil], nofun, List.nodup_nil, nofun⟩

theorem Mints.trans (left : Mints before first middle) (right : Mints middle second after) :
    Mints before (first ++ second) after := by
  refine ⟨?_, ?_, ?_, ?_⟩
  · rw [right.mappings, left.mappings, List.append_assoc]
  · intro mapping mem
    exact (List.mem_append.mp mem).elim (left.valid mapping) (right.valid mapping)
  · rw [List.map_append, List.nodup_append]
    refine ⟨left.distinct, right.distinct, ?_⟩
    rintro _ old token new rfl
    obtain ⟨oldMapping, isOld, oldToken⟩ := List.mem_map.mp old
    obtain ⟨newMapping, isNew, newToken⟩ := List.mem_map.mp new
    have inMiddle : oldMapping ∈ middle.mappings := by
      rw [left.mappings]
      exact List.mem_append_right _ isOld
    exact right.fresh newMapping isNew oldMapping inMiddle (oldToken.trans newToken.symm)
  · intro mapping mem old isOld
    rcases List.mem_append.mp mem with inFirst | inSecond
    · exact left.fresh mapping inFirst old isOld
    · apply right.fresh mapping inSecond old
      rw [left.mappings]
      exact List.mem_append_left _ isOld

/-- A token that was created stands for the identity it was created for. -/
theorem Mints.stands {token : AuthToken} {identity : Identity} (mints : Mints before minted after)
    (isMinted : ⟨token, identity⟩ ∈ minted) : after.getIdentityProperties token = .ok identity := by
  have absent : before.mappings.find? (fun mapping => mapping.token = token) = none := by
    simpa using mints.fresh _ isMinted
  have unique : ∀ {mappings : List TokenMapping}, (mappings.map TokenMapping.token).Nodup →
      (⟨token, identity⟩ : TokenMapping) ∈ mappings →
      mappings.find? (fun mapping => mapping.token = token) = some ⟨token, identity⟩ := by
    intro mappings distinct mem
    induction mappings with
    | nil => cases mem
    | cons head rest ih =>
      rw [List.map_cons, List.nodup_cons] at distinct
      rcases List.mem_cons.mp mem with rfl | inRest
      · simp
      · have other : head.token ≠ token := fun same =>
          distinct.1 (same ▸ List.mem_map_of_mem (f := TokenMapping.token) inRest)
        simp [other, ih distinct.2 inRest]
  rw [getIdentityProperties_eq_ok, mints.mappings, List.find?_append, absent, unique mints.distinct isMinted]
  rfl

end

/-! ## What each function creates -/

def canCreateToken (p : Platform) (auth : AuthState) : Bool :=
  match p.getRng auth.draws with
  | .error _ => false
  | .ok random => random ≠ authTokenInvalid && (auth.findListEntryByAuthToken random).isNone

section

variable (p : Platform) (auth : AuthState)

theorem createAuthTokenWithMapping_mints (identity : Identity) :
    let created := createAuthTokenWithMapping p auth identity
    (canCreateToken p auth = false ∧ created.1 = authTokenInvalid ∧ Mints auth [] created.2) ∨
      (canCreateToken p auth = true ∧ Mints auth [⟨created.1, identity⟩] created.2) := by
  simp only [canCreateToken]
  rcases createAuthTokenWithMapping_cases p auth identity with fails | ⟨token, valid, fresh, drawn, works⟩
  · refine .inl ⟨?_, by rw [fails], by rw [fails]; exact .nothing rfl⟩
    -- the failure has one of three reasons, all of them in `canCreateToken`
    rw [createAuthTokenWithMapping, createRandomAuthToken] at fails
    cases drawn : p.getRng auth.draws with
    | error status => rfl
    | ok random =>
      by_cases invalid : random = authTokenInvalid
      · simp [invalid]
      · by_cases used : (auth.findListEntryByAuthToken random).isSome = true
        · simp [used]
        · have unused : ({ auth with draws := auth.draws + 1 } : AuthState).findListEntryByAuthToken random = none := by
            simpa [findListEntryByAuthToken] using used
          simp [drawn, invalid, addAuthHandleMapping, unused] at fails
  · refine .inr ⟨?_, ?_⟩
    · have unused : auth.findListEntryByAuthToken token = none := by
        simpa [findListEntryByAuthToken] using fresh
      simp [drawn, valid, unused]
    · rw [works]
      refine ⟨rfl, ?_, List.nodup_singleton _, ?_⟩
      · intro mapping mem
        cases List.mem_singleton.mp mem
        exact valid
      · intro mapping mem old isOld
        cases List.mem_singleton.mp mem
        exact fresh old isOld

/-- `AuthWithPW` creates the token it returns, for the local user or for unsigned packets. -/
theorem authWithPW_mints (password : PasswordArgument) (passwordLength : Nat) :
    let answer := auth.authWithPW p password passwordLength
    (answer.1 ≠ .success ∧ answer.2.1 = authTokenInvalid ∧ Mints auth [] answer.2.2) ∨
      (answer.1 = .success ∧ Mints auth
        [⟨answer.2.1, if password = .noPasswordUnsigned then Identity.unsignedLocal else .local⟩] answer.2.2) := by
  simp only [authWithPW]
  generalize (if password = .noPasswordUnsigned then Identity.unsignedLocal else .local) = identity
  split
  · have creates := createAuthTokenWithMapping_mints p
      { auth with adminPasswordSet := some (auth.adminPasswordSet.getD p.passwordStoreIsPasswordSet) } identity
    generalize createAuthTokenWithMapping p _ identity = created at creates
    rcases creates with ⟨_, invalid, mints⟩ | ⟨_, mints⟩
    · rw [if_pos invalid]
      exact .inl ⟨(by simp), rfl, ⟨mints.mappings, mints.valid, mints.distinct, mints.fresh⟩⟩
    · rw [if_neg (mints.valid _ (List.mem_singleton_self _))]
      exact .inr ⟨rfl, ⟨mints.mappings, mints.valid, mints.distinct, mints.fresh⟩⟩
  · exact .inl ⟨(by simp), rfl, .nothing rfl⟩

/-- The identity in whose name `AuthWithSignedData` answers. -/
def signedBy (certs : CertStore) (signedData signature : List Byte) : Option Identity :=
  if signedData.length < 1 then none
  else if certs.populatedIdentities &&& Mask.keys = 0 then none
  else signerOf p certs signedData signature

/-- The state after a signature gave no token: with a signer, a random number was drawn for nothing. -/
def withoutToken (signer : Option Identity) : AuthState :=
  if signer.isSome then { auth with draws := auth.draws + 1 } else auth

/-- `AuthWithSignedData` creates the token it returns, for the signer. -/
theorem authWithSignedData_mints (certs : CertStore) (signedData signature : List Byte) (token : AuthToken) :
    let answer := authWithSignedData p certs auth signedData signature token
    (∃ code, answer.1 = .error code ∧ answer.2.1 = token ∧
      answer.2.2 = auth.withoutToken (signedBy p certs signedData signature) ∧
      (∀ signer, signedBy p certs signedData signature = some signer → canCreateToken p auth = false)) ∨
      ∃ signer, signedBy p certs signedData signature = some signer ∧ canCreateToken p auth = true ∧
        answer.1 = .success ∧ Mints auth [⟨answer.2.1, signer⟩] answer.2.2 := by
  simp only [authWithSignedData, signedBy]
  split
  · exact .inl ⟨_, rfl, rfl, rfl, (by simp)⟩
  · split
    · exact .inl ⟨_, rfl, rfl, rfl, (by simp)⟩
    · split
      · rename_i unsigned
        exact .inl ⟨_, rfl, rfl, by simp [unsigned, withoutToken], by simp [unsigned]⟩
      · rename_i signer signs
        simp only [signs, withoutToken, Option.isSome_some, if_true]
        rcases createAuthTokenWithMapping_cases p auth signer with fails | ⟨random, valid, _, _, works⟩
        · rcases createAuthTokenWithMapping_mints p auth signer with ⟨cannot, _⟩ | ⟨_, mints⟩
          · exact .inl ⟨7, by simp [fails], by simp [fails], by simp [fails], fun _ _ => cannot⟩
          · exact absurd (by rw [fails]) (mints.valid _ (List.mem_singleton_self _))
        · rcases createAuthTokenWithMapping_mints p auth signer with ⟨_, invalid, _⟩ | ⟨can, mints⟩
          · exact absurd (by rw [← invalid, works]) valid
          · rw [works] at mints
            exact .inr ⟨signer, rfl, can, by simp [works, valid], by simpa [works, valid] using mints⟩

end

theorem Mints.withoutToken (auth : AuthState) (signer : Option Identity) : auth.Mints [] (auth.withoutToken signer) := by
  rw [AuthState.withoutToken]
  split <;> exact .nothing rfl

/-! ## Disposal -/

theorem mappings_disposeAuthToken (auth : AuthState) (token : AuthToken) :
    (auth.disposeAuthToken token).2.2.mappings = auth.mappings.eraseP fun mapping => mapping.token = token := by
  rw [disposeAuthToken]
  split
  · rfl
  · rename_i unused
    have absent : auth.mappings.find? (fun mapping => mapping.token = token) = none := by
      simpa [findListEntryByAuthToken] using unused
    rw [List.eraseP_of_forall_not]
    exact List.find?_eq_none.mp absent

/-- Disposing by identity leaves what the other tokens stand for. -/
theorem getIdentityProperties_disposeAllIdentityMappings {auth : AuthState} {mask : Mask} {token : AuthToken}
    {identity : Identity} (stands : auth.getIdentityProperties token = .ok identity) (spared : mask.has identity = false) :
    (auth.disposeAllIdentityMappings mask).getIdentityProperties token = .ok identity := by
  rw [getIdentityProperties_eq_ok] at stands ⊢
  rw [disposeAllIdentityMappings, List.find?_filter]
  obtain ⟨isToken, before, rest, split, others⟩ := List.find?_eq_some_iff_append.mp stands
  rw [List.find?_eq_some_iff_append]
  refine ⟨by simp [spared], before, rest, split, fun mapping mem => ?_⟩
  have other := others mapping mem
  simp only [Bool.not_eq_true', decide_eq_false_iff_not] at other
  simp [other]

theorem disposeAllIdentityMappings_revokes {auth : AuthState} {mask : Mask} {token : AuthToken} {identity : Identity}
    (stands : (auth.disposeAllIdentityMappings mask).getIdentityProperties token = .ok identity) :
    mask.has identity = false := by
  rw [getIdentityProperties_eq_ok] at stands
  have mem := List.mem_of_find?_eq_some stands
  simpa using (List.mem_filter.mp mem).2

/-- Disposing a token leaves what the other tokens stand for. -/
theorem getIdentityProperties_disposeAuthToken (auth : AuthState) {token other : AuthToken} (different : other ≠ token) :
    (auth.disposeAuthToken token).2.2.getIdentityProperties other = auth.getIdentityProperties other := by
  have finds : ∀ mappings : List TokenMapping,
      (mappings.eraseP fun mapping => mapping.token = token).find? (fun mapping => mapping.token = other) =
        mappings.find? fun mapping => mapping.token = other := by
    intro mappings
    induction mappings with
    | nil => rfl
    | cons head rest ih =>
      by_cases isToken : head.token = token
      · have isOther : head.token ≠ other := fun same => different (same.symm.trans isToken)
        rw [List.eraseP_cons_of_pos (by simpa using isToken), List.find?_cons_of_neg (by simpa using isOther)]
      · simp [isToken, List.find?_cons, ih]
  rw [getIdentityProperties, getIdentityProperties, findListEntryByAuthToken, findListEntryByAuthToken,
    mappings_disposeAuthToken, finds]

/-! ## The invariant of the list -/

structure Distinct (auth : AuthState) : Prop where
  nodup : (auth.mappings.map TokenMapping.token).Nodup
  valid : ∀ mapping ∈ auth.mappings, mapping.token ≠ authTokenInvalid

theorem Distinct.loaded (draws : Nat) : (loaded draws).Distinct := ⟨List.nodup_nil, nofun⟩

theorem Distinct.mints {before after : AuthState} {minted : List TokenMapping} (distinct : before.Distinct)
    (mints : Mints before minted after) : after.Distinct := by
  refine ⟨?_, ?_⟩
  · rw [mints.mappings, List.map_append, List.nodup_append]
    refine ⟨distinct.nodup, mints.distinct, ?_⟩
    rintro _ old token new rfl
    obtain ⟨oldMapping, isOld, oldToken⟩ := List.mem_map.mp old
    obtain ⟨newMapping, isNew, newToken⟩ := List.mem_map.mp new
    exact mints.fresh newMapping isNew oldMapping isOld (oldToken.trans newToken.symm)
  · intro mapping mem
    rw [mints.mappings] at mem
    exact (List.mem_append.mp mem).elim (distinct.valid mapping) (mints.valid mapping)

theorem Distinct.sublist {before after : AuthState} (distinct : before.Distinct)
    (sublist : after.mappings.Sublist before.mappings) : after.Distinct :=
  ⟨distinct.nodup.sublist (sublist.map _), fun mapping mem => distinct.valid mapping (sublist.subset mem)⟩

theorem Distinct.disposeAuthToken {auth : AuthState} (distinct : auth.Distinct) (token : AuthToken) :
    (auth.disposeAuthToken token).2.2.Distinct :=
  distinct.sublist (by rw [mappings_disposeAuthToken]; exact List.eraseP_sublist)

theorem Distinct.disposeAllIdentityMappings {auth : AuthState} (distinct : auth.Distinct) (mask : Mask) :
    (auth.disposeAllIdentityMappings mask).Distinct :=
  distinct.sublist List.filter_sublist

end AuthState

end Dfci
