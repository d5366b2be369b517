import Dfci.Settings.Access

/-! # The flag that promises write access

Get and Set ask the same permission, each in its own loop over the members of a group. Get leaves the flags of the member
at which its reading stops; Set goes on after a member that is refused. -/

namespace Dfci

open CommonValue

namespace SettingFlags

/-- `Flags & DFCI_SETTING_FLAGS_OUT_WRITE_ACCESS` -/
def writeAccess (flags : SettingFlags) : Bool :=
  flags &&& outWriteAccess != 0

theorem writeAccess_or (flags : SettingFlags) : writeAccess (flags ||| outWriteAccess) = true := by
  have absorbs : (flags ||| outWriteAccess) &&& outWriteAccess = outWriteAccess := by
    ext i
    simp only [BitVec.getElem_and, BitVec.getElem_or]
    grind
  rw [writeAccess, absorbs]
  decide

end SettingFlags

namespace Providers

section

variable (p : Platform) (req : WriteRequest) (providers : Providers)

def RefusesSet (id : SettingId) : Prop :=
  ∀ type value flags, accessSetMember p req providers id type value flags = ⟨.accessDenied, flags, providers⟩

def Denied (id : SettingId) : Prop :=
  (providers.findProviderById p id).isSome = true ∧
    (req.hasWritePermissions providers.groups id = .ok false ∨
      req.hasWritePermissions providers.groups id = .error .accessDenied)

/-- The permission check allows, or the provider was registered with the flag. -/
def ShowsAccess (id : SettingId) : Prop :=
  ∃ provider, providers.findProviderById p id = some provider ∧
    (provider.flags.writeAccess = true ∨ req.hasWritePermissions providers.groups id = .ok true)

theorem refusesSet_iff (id : SettingId) : RefusesSet p req providers id ↔ Denied p req providers id := by
  rw [RefusesSet, Denied]
  cases found : providers.findProviderById p id with
  | none =>
    refine iff_of_false (fun refuses => ?_) (by simp)
    have status := congrArg SettingSet.status (refuses .enable [] 0)
    simp [accessSetMember, found] at status
  | some provider =>
    simp only [accessSetMember, found, accessSetProvider, Option.isSome_some, true_and]
    cases req.hasWritePermissions providers.groups id with
    | error status =>
      refine ⟨fun refuses => .inr ?_, fun denied type value flags => ?_⟩
      · exact congrArg Except.error (congrArg SettingSet.status (refuses .enable [] 0))
      · have isDenied : status = .accessDenied := by simpa using denied
        rw [isDenied]
    | ok permitted =>
      cases permitted with
      | false => exact iff_of_true (fun _ _ _ => rfl) (.inl rfl)
      | true =>
        -- a Set that gets past the check says so of a wrong type
        refine iff_of_false (fun refuses => ?_) (by simp)
        obtain ⟨type, differs⟩ : ∃ type, type ≠ provider.type := by
          by_cases enable : provider.type = .enable
          · exact ⟨.string, by simp [enable]⟩
          · exact ⟨.enable, fun same => enable same.symm⟩
        have status := congrArg SettingSet.status (refuses type [] 0)
        simp [differs] at status

/-! ## Where the reading of a group stops -/

section

variable (reading : SettingId → Reading Nat Byte) (localValue : Byte)

/-- What the local byte holds after the members were read. -/
def byteAfter (ids : List SettingId) : Byte :=
  ids.foldl (fun value id => (reading id).written.getD value) localValue

/-- The values let the reading go on after `next`: it is the first member, it leaves the byte of the member before it, or
that one reads as `ENABLE_INCONSISTENT`. -/
def GoesOn (before : List SettingId) (next : SettingId) : Prop :=
  before = [] ∨ byteAfter reading localValue before = enableInconsistent ∨
    byteAfter reading localValue (before ++ [next]) = byteAfter reading localValue before

/-- By their values, the reading of the members stops at `stop`: it is the first that does not let it go on, or else the
last. -/
def StopsAt (ids : List SettingId) (stop : SettingId) : Prop :=
  ∃ before, before ++ [stop] <+: ids ∧
    (∀ earlier next, earlier ++ [next] <+: before → GoesOn reading localValue earlier next) ∧
    (before ++ [stop] = ids ∨ ¬ GoesOn reading localValue before stop)

end

/-- What the check of `stop` says holds for all that are requested: if one of them is denied, `stop` is, and was not
registered with the flag; and the check of `stop` has an answer. -/
structure SpeaksFor (ids : List SettingId) (stop : SettingId) : Prop where
  denied : ∀ requested ∈ ids, Denied p req providers requested → Denied p req providers stop ∧
    ∀ provider, providers.findProviderById p stop = some provider → provider.flags.writeAccess = false
  answered : Denied p req providers stop ∨ ShowsAccess p req providers stop

end

section

variable {p : Platform} {get : GetSettingValue} {req : WriteRequest} {providers : Providers}

/-- A member that can be read leaves the flags of its provider. -/
theorem accessGetMember_flags {type : SettingType} {id : SettingId} {size : Nat} {flags : SettingFlags}
    (reads : (accessGetMember p get (some req) providers type id size (some flags)).status = .success) :
    ∃ provider, providers.findProviderById p id = some provider ∧
      (accessGetMember p get (some req) providers type id size (some flags)).flags =
        some (reportedFlags (some req) providers provider id) := by
  rw [accessGetMember] at reads ⊢
  split at reads
  · cases reads
  · rename_i provider found
    refine ⟨provider, found, ?_⟩
    rw [accessGetProvider] at reads ⊢
    split at reads
    · cases reads
    · rename_i sameType
      rw [if_neg sameType]
      rfl

theorem reportedFlags_writeAccess {id : SettingId} {provider : SettingProvider}
    (found : providers.findProviderById p id = some provider) :
    (reportedFlags (some req) providers provider id).writeAccess = true ↔ ShowsAccess p req providers id := by
  have only : ShowsAccess p req providers id ↔
      provider.flags.writeAccess = true ∨ req.hasWritePermissions providers.groups id = .ok true := by
    simp [ShowsAccess, found]
  rw [only, reportedFlags]
  cases req.hasWritePermissions providers.groups id with
  | error status => simp
  | ok permitted =>
    cases permitted with
    | false => simp
    | true => simp [SettingFlags.writeAccess_or]

/-- The loop does not forget an error. -/
theorem getMembers_succeeds {type : SettingType} {ids : List SettingId} {read : GroupRead}
    (succeeds : (getMembers p get (some req) providers type ids read).returnStatus = .success) :
    read.returnStatus = .success := by
  induction ids generalizing read with
  | nil => exact succeeds
  | cons id ids ih =>
    rw [getMembers] at succeeds
    split at succeeds
    · rename_i fails
      have reads := ih succeeds
      simp only at reads
      rw [reads] at fails
      cases fails
    · split at succeeds
      · have sofar := ih succeeds
        exact sofar
      · split at succeeds
        · exact succeeds
        · have sofar := ih succeeds
          exact sofar

theorem getMembers_reads {type : SettingType} {id : SettingId} {ids : List SettingId} {read : GroupRead}
    (succeeds : (getMembers p get (some req) providers type (id :: ids) read).returnStatus = .success) :
    (accessGetMember p get (some req) providers type id 1 read.flags).status = .success := by
  rw [getMembers] at succeeds
  split at succeeds
  · rename_i fails
    have reads := getMembers_succeeds succeeds
    simp only at reads
    rw [reads] at fails
    cases fails
  · rename_i reads
    exact EfiStatus.isError_eq_false.mp (Bool.eq_false_iff.mpr reads)

theorem byteAfter_concat (reading : SettingId → Reading Nat Byte) (localValue : Byte) (ids : List SettingId)
    (id : SettingId) : byteAfter reading localValue (ids ++ [id]) =
      (reading id).written.getD (byteAfter reading localValue ids) := by
  rw [byteAfter, List.foldl_concat]
  rfl

section

variable {reading : SettingId → Reading Nat Byte} {localValue : Byte} {ids : List SettingId} {stop : SettingId}

theorem StopsAt.mem (stops : StopsAt reading localValue ids stop) : stop ∈ ids := by
  obtain ⟨before, within, _⟩ := stops
  exact within.subset (List.mem_append_right _ (List.mem_singleton_self stop))

theorem StopsAt.unique {other : SettingId} (stops : StopsAt reading localValue ids stop)
    (otherStops : StopsAt reading localValue ids other) : stop = other := by
  -- a shorter stop would be one of the members that let the longer reading go on
  have shorter : ∀ {first second : List SettingId} {early late : SettingId}, first.length < second.length →
      first ++ [early] <+: ids → (first ++ [early] = ids ∨ ¬ GoesOn reading localValue first early) →
      second ++ [late] <+: ids →
      ¬ ∀ earlier next, earlier ++ [next] <+: second → GoesOn reading localValue earlier next := by
    intro first second early late less within ends beyond goesOn
    have inner : first ++ [early] <+: second := by
      apply List.prefix_of_prefix_length_le within ((List.prefix_append _ _).trans beyond)
      rw [List.length_append, List.length_singleton]
      exact less
    rcases ends with whole | stopsHere
    · have fits := beyond.length_le
      have same := congrArg List.length whole
      rw [List.length_append, List.length_singleton] at fits same
      omega
    · exact stopsHere (goesOn first early inner)
  obtain ⟨before, within, goesOn, ends⟩ := stops
  obtain ⟨otherBefore, otherWithin, otherGoesOn, otherEnds⟩ := otherStops
  rcases Nat.lt_trichotomy before.length otherBefore.length with less | same | more
  · exact absurd otherGoesOn (shorter less within ends otherWithin)
  · have equal : before ++ [stop] = otherBefore ++ [other] := by
      apply (List.prefix_of_prefix_length_le within otherWithin _).eq_of_length
      all_goals simp [same]
    exact List.singleton_inj.mp (List.append_inj equal same).2
  · exact absurd goesOn (shorter more otherWithin otherEnds within)

/-- Members that all leave the same byte are read to the last. -/
theorem stopsAt_of_same (value : Byte) (same : ∀ id ∈ ids, (reading id).written = some value) (last : SettingId) :
    StopsAt reading localValue (ids ++ [last]) last := by
  refine ⟨ids, List.prefix_rfl, fun earlier next within => ?_, .inl rfl⟩
  have written : ∀ id ∈ earlier ++ [next], (reading id).written = some value := fun id mem =>
    same id (within.subset mem)
  rcases earlier.eq_nil_or_concat' with rfl | ⟨before, previous, rfl⟩
  · exact .inl rfl
  · refine .inr (.inr ?_)
    rw [byteAfter_concat, byteAfter_concat, written next (by simp), written previous (by simp)]
    rfl

end

/-- The flags that a successful loop leaves, once `id` was read after the members before it. -/
theorem getMembers_flags (type : SettingType) (localValue : Byte) (ids before : List SettingId)
    {id : SettingId} {provider : SettingProvider} (found : providers.findProviderById p id = some provider)
    (goesOn : ∀ earlier next, earlier ++ [next] <+: before ++ [id] →
      GoesOn (memberReading p get providers type) localValue earlier next) {value : Byte}
    (isValue : byteAfter (memberReading p get providers type) localValue (before ++ [id]) = value)
    (succeeds : (getMembers p get (some req) providers type ids
      ⟨.success, value, value, some (reportedFlags (some req) providers provider id)⟩).returnStatus = .success) :
    ∃ stop last, StopsAt (memberReading p get providers type) localValue (before ++ [id] ++ ids) stop ∧
      providers.findProviderById p stop = some last ∧ (getMembers p get (some req) providers type ids
        ⟨.success, value, value, some (reportedFlags (some req) providers provider id)⟩).flags =
        some (reportedFlags (some req) providers last stop) := by
  induction ids generalizing before id provider value with
  | nil =>
    refine ⟨id, provider, ⟨before, by simp, fun earlier next within => ?_, .inl (by simp)⟩, found, rfl⟩
    exact goesOn earlier next (within.trans (List.prefix_append _ _))
  | cons next ids ih =>
    have isNext := byteAfter_concat (memberReading p get providers type) localValue (before ++ [id]) next
    rw [isValue] at isNext
    have reads : (accessGetMember p get (some req) providers type next 1
        (some (reportedFlags (some req) providers provider id))).status = .success := getMembers_reads succeeds
    obtain ⟨nextProvider, nextFound, flags⟩ := accessGetMember_flags reads
    simp only [getMembers, accessGetMember_cell, reads, EfiStatus.isError_success, Bool.false_eq_true, if_false,
      flags] at succeeds ⊢
    -- the next member is read in the same way, where it lets the reading go on
    have continues := fun here => ih (before ++ [id]) nextFound (fun earlier other within => by
      rcases List.prefix_concat_iff.mp within with same | inner
      · obtain ⟨rfl, one⟩ := List.append_inj' same rfl
        cases List.singleton_inj.mp one
        exact here
      · exact goesOn earlier other inner) isNext
    rw [List.append_assoc _ [next], List.singleton_append] at continues
    by_cases inconsistent : value = enableInconsistent
    · rw [if_pos inconsistent] at succeeds ⊢
      exact continues (.inr (.inl (isValue.trans inconsistent))) succeeds
    · by_cases differs : value ≠ (memberReading p get providers type next).written.getD value
      · rw [if_neg inconsistent, if_pos differs]
        refine ⟨next, nextProvider, ⟨before ++ [id], ⟨ids, by simp⟩, goesOn, .inr ?_⟩, nextFound, rfl⟩
        rintro (empty | marked | same)
        · simp at empty
        · exact inconsistent (isValue.symm.trans marked)
        · rw [isNext, isValue] at same
          exact differs same.symm
      · rw [if_neg inconsistent, if_neg differs] at succeeds ⊢
        have same := not_not.mp differs
        rw [← same] at continues
        rw [← same] at succeeds ⊢
        refine continues (.inr (.inr ?_)) succeeds
        rw [isNext, isValue, ← same]

variable (p get req providers) in
/-- The loop from its start, where the flags of the caller are still in place. -/
theorem getMembers_first (type : SettingType) (first : SettingId) (ids : List SettingId) (localValue : Byte)
    (flags : SettingFlags) (succeeds : (getMembers p get (some req) providers type (first :: ids)
      ⟨.success, enableInconsistent, localValue, some flags⟩).returnStatus = .success) :
    ∃ stop provider, StopsAt (memberReading p get providers type) localValue (first :: ids) stop ∧
      providers.findProviderById p stop = some provider ∧ (getMembers p get (some req) providers type (first :: ids)
        ⟨.success, enableInconsistent, localValue, some flags⟩).flags =
          some (reportedFlags (some req) providers provider stop) := by
  have reads : (accessGetMember p get (some req) providers type first 1 (some flags)).status = .success :=
    getMembers_reads succeeds
  obtain ⟨provider, found, reported⟩ := accessGetMember_flags reads
  simp only [getMembers, accessGetMember_cell, reads, EfiStatus.isError_success, Bool.false_eq_true, if_false, if_true,
    reported] at succeeds ⊢
  refine getMembers_flags type localValue ids [] found (fun earlier next within => .inl ?_) rfl succeeds
  have short := within.length_le
  simp only [List.length_append, List.nil_append, List.length_singleton] at short
  exact List.eq_nil_of_length_eq_zero (by omega)

/-- The flags that a successful Get leaves: those of the provider, or of the member at which the reading stops. -/
theorem accessGet_flags {id : SettingId} {type : SettingType} {size : Nat} {flags : SettingFlags} {localValue : Byte}
    (nonempty : requestedIds p providers id ≠ [])
    (succeeds : (internalSystemSettingAccessGet p get (some req) localValue providers id type size
      (some flags)).status = .success) : ∃ stop provider,
      StopsAt (memberReading p get providers type) localValue (requestedIds p providers id) stop ∧
      providers.findProviderById p stop = some provider ∧
      (internalSystemSettingAccessGet p get (some req) localValue providers id type size (some flags)).flags =
          some (reportedFlags (some req) providers provider stop) := by
  rw [internalSystemSettingAccessGet] at succeeds ⊢
  rw [requestedIds] at nonempty ⊢
  cases found : providers.findProviderById p id with
  | some provider =>
    have mem : accessGetMember p get (some req) providers type id size (some flags) =
        accessGetProvider get (some req) providers provider id type size (some flags) := by
      rw [accessGetMember, found]
    simp only [found, ← mem] at succeeds ⊢
    obtain ⟨_, isProvider, reported⟩ := accessGetMember_flags succeeds
    cases found.symm.trans isProvider
    exact ⟨id, provider, stopsAt_of_same 0 (List.forall_mem_nil _) id, found, reported⟩
  | none =>
    simp only [found] at succeeds nonempty ⊢
    cases isGroup : findGroup providers.groups id with
    | none =>
      rw [isGroup] at nonempty
      exact absurd rfl nonempty
    | some group =>
      simp only [isGroup] at succeeds nonempty ⊢
      by_cases small : size < 1
      · rw [if_pos small] at succeeds
        cases succeeds
      · rw [if_neg small] at succeeds ⊢
        obtain ⟨first, ids, isCons⟩ := List.exists_cons_of_ne_nil nonempty
        rw [isCons] at succeeds ⊢
        have flagsOf := fun succeeds => getMembers_first p get req providers type first ids localValue flags succeeds
        generalize getMembers p get (some req) providers type (first :: ids)
          ⟨.success, enableInconsistent, localValue, some flags⟩ = read at succeeds flagsOf ⊢
        cases status : read.returnStatus with
        | success => simpa only [status] using flagsOf status
        | error code =>
          simp only [status] at succeeds
          split at succeeds
          · rename_i absurd
            cases absurd
          · cases succeeds
          · cases succeeds

/-! ## What the flag is worth -/

theorem not_showsAccess_of_denied {id : SettingId} (denied : Denied p req providers id)
    (unflagged : ∀ provider, providers.findProviderById p id = some provider →
      provider.flags.writeAccess = false) : ¬ ShowsAccess p req providers id := by
  rintro ⟨provider, found, flagged | permitted⟩
  · rw [unflagged provider found] at flagged
    cases flagged
  · rcases denied.2 with refused | fails
    · rw [permitted] at refused
      cases refused
    · rw [permitted] at fails
      cases fails

/-- A denial of one id is no accident of the token or the store: another id is denied, or the check allows it. -/
theorem denied_or_permitted {id other : SettingId} {provider : SettingProvider}
    (denied : Denied p req providers id) (found : providers.findProviderById p other = some provider) :
    Denied p req providers other ∨ req.hasWritePermissions providers.groups other = .ok true := by
  have present : (providers.findProviderById p other).isSome = true := by rw [found]; rfl
  obtain ⟨_, answer⟩ := denied
  obtain ⟨store, properties⟩ := req
  simp only [Denied, WriteRequest.hasWritePermissions] at answer ⊢
  cases store with
  | none => simp at answer
  | some store =>
    cases properties with
    | error status => simpa [present] using answer
    | ok identity => cases PermissionStore.hasWritePermissions providers.groups store identity other <;> simp [present]

/-- The check of one id foretells those of all exactly when it speaks for them. -/
theorem showsAccess_iff_speaksFor {ids : List SettingId} {stop : SettingId} {provider : SettingProvider}
    (mem : stop ∈ ids) (found : providers.findProviderById p stop = some provider) :
    (ShowsAccess p req providers stop ↔ ∀ requested ∈ ids, ¬ Denied p req providers requested) ↔
      SpeaksFor p req providers ids stop := by
  constructor
  · intro foretells
    by_cases shows : ShowsAccess p req providers stop
    · exact ⟨fun requested inIds denied => absurd denied (foretells.mp shows requested inIds), .inr shows⟩
    · have stopDenied : ∀ requested ∈ ids, Denied p req providers requested →
          Denied p req providers stop := by
        intro requested inIds denied
        rcases denied_or_permitted denied found with stopDenied | permitted
        · exact stopDenied
        · exact absurd ⟨provider, found, .inr permitted⟩ shows
      refine ⟨fun requested inIds denied => ⟨stopDenied requested inIds denied, fun other isOther => ?_⟩, .inl ?_⟩
      · rw [Bool.eq_false_iff]
        exact fun flagged => shows ⟨other, isOther, .inl flagged⟩
      · obtain ⟨requested, inIds, denied⟩ : ∃ requested ∈ ids, Denied p req providers requested := by
          by_contra none
          push Not at none
          exact shows (foretells.mpr none)
        exact stopDenied requested inIds denied
  · rintro ⟨speaks, answered⟩
    constructor
    · intro shows requested inIds denied
      obtain ⟨stopDenied, unflagged⟩ := speaks requested inIds denied
      exact not_showsAccess_of_denied stopDenied unflagged shows
    · intro allowed
      exact answered.resolve_left (allowed stop mem)

def flagsWriteAccess (got : SettingGet) : Prop :=
  ∃ flags, got.flags = some flags ∧ flags.writeAccess = true

/-- A successful Get foretells whether a Set is refused, exactly when the member at which the values stop the reading
speaks for all members. -/
theorem writeAccess_foretells_iff {id : SettingId} {type : SettingType} {size : Nat} {flags : SettingFlags}
    {localValue : Byte} (nonempty : requestedIds p providers id ≠ [])
    (succeeds : (internalSystemSettingAccessGet p get (some req) localValue providers id type size
      (some flags)).status = .success) :
    (flagsWriteAccess (internalSystemSettingAccessGet p get (some req) localValue providers id type size
        (some flags)) ↔ ∀ requested ∈ requestedIds p providers id, ¬ RefusesSet p req providers requested) ↔
    ∀ stop, StopsAt (memberReading p get providers type) localValue (requestedIds p providers id) stop →
      SpeaksFor p req providers (requestedIds p providers id) stop := by
  obtain ⟨stop, provider, stops, found, reported⟩ := accessGet_flags nonempty succeeds
  have only : (∀ other, StopsAt (memberReading p get providers type) localValue
        (requestedIds p providers id) other →
      SpeaksFor p req providers (requestedIds p providers id) other) ↔
      SpeaksFor p req providers (requestedIds p providers id) stop :=
    ⟨fun all => all stop stops, fun speaks other otherStops => stops.unique otherStops ▸ speaks⟩
  rw [only, ← showsAccess_iff_speaksFor stops.mem found]
  simp only [flagsWriteAccess, reported, Option.some.injEq, exists_eq_left', reportedFlags_writeAccess found,
    refusesSet_iff]

end

/-- The request of the local user, where the camera may be written by the Owner only. -/
def cameraOwned (camera : SettingId) : WriteRequest :=
  ⟨some ((PermissionStore.blankStore {}).addPermissionEntry camera Identity.signerOwner.bit Mask.none).2, .ok .local⟩

def camerasOn : Providers := threeCameras [1] [1] [1]

def getCameras (req : WriteRequest) : SettingGet :=
  internalSystemSettingAccessGet {} getKept (some req) 0 camerasOn allCamerasId .enable 1 (some 0)

/-- All cameras are on, so the reading goes on to the last one, and that one is refused. -/
theorem writeAccess_foretells_cameras :
    flagsWriteAccess (getCameras (cameraOwned irCameraId)) ↔
      ∀ requested ∈ requestedIds {} camerasOn allCamerasId,
        ¬ RefusesSet {} (cameraOwned irCameraId) camerasOn requested := by
  have evaluated : requestedIds {} camerasOn allCamerasId = [frontCameraId, rearCameraId] ++ [irCameraId] ∧
      (getCameras (cameraOwned irCameraId)).status = .success ∧
      camerasOn.findProviderById {} irCameraId = some ⟨irCameraId, .enable, 0, [1]⟩ ∧
      (cameraOwned irCameraId).hasWritePermissions camerasOn.groups irCameraId = .ok false ∧
      ∀ id ∈ [frontCameraId, rearCameraId],
        (memberReading {} getKept camerasOn .enable id).written = some 1 := by
    decide +kernel
  obtain ⟨members, succeeds, found, refused, same⟩ := evaluated
  have nonempty : requestedIds {} camerasOn allCamerasId ≠ [] := by
    rw [members]
    exact List.cons_ne_nil _ _
  refine (writeAccess_foretells_iff nonempty succeeds).mpr fun stop stops => ?_
  rw [members] at stops ⊢
  obtain rfl := (stopsAt_of_same _ same irCameraId).unique stops
  have denied : Denied {} (cameraOwned irCameraId) camerasOn irCameraId :=
    ⟨by rw [found]; rfl, .inl refused⟩
  refine ⟨fun _ _ _ => ⟨denied, fun provider isProvider => ?_⟩, .inl denied⟩
  cases found.symm.trans isProvider
  decide

/-- All cameras are on, so the loop goes on to the last one, which the local user may set; the first one is refused. -/
theorem writeAccess_of_refused_group :
    (getCameras (cameraOwned frontCameraId)).status = .success ∧
      ¬ (flagsWriteAccess (getCameras (cameraOwned frontCameraId)) ↔
          ∀ requested ∈ requestedIds {} camerasOn allCamerasId,
            ¬ RefusesSet {} (cameraOwned frontCameraId) camerasOn requested) := by
  have evaluated : (getCameras (cameraOwned frontCameraId)).status = .success ∧
      (getCameras (cameraOwned frontCameraId)).flags = some SettingFlags.outWriteAccess ∧
      frontCameraId ∈ requestedIds {} camerasOn allCamerasId ∧
      (camerasOn.findProviderById {} frontCameraId).isSome = true ∧
      (cameraOwned frontCameraId).hasWritePermissions camerasOn.groups frontCameraId = .ok false := by
    decide +kernel
  obtain ⟨succeeds, flags, mem, registered, denied⟩ := evaluated
  refine ⟨succeeds, fun foretells => ?_⟩
  have refused := foretells.mp ⟨_, flags, by decide⟩ frontCameraId mem
  exact refused ((refusesSet_iff ..).mpr ⟨registered, .inl denied⟩)

end Providers

end Dfci
