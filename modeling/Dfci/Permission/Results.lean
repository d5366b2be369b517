import Dfci.Permission.Authority

/-! # The results that a permission packet reports

The result document gives one status for each element of the packet. The turns of the element loop are
kept here with the store before and after each of them, so that a status can be compared with what its
element did. -/

namespace Dfci

namespace PermissionStore

open PermissionXml FirstMatch

structure ElementTurn where
  input : InputPermission
  before : PermissionStore
  status : EfiStatus
  after : PermissionStore

def ElementTurn.report (turn : ElementTurn) : SettingId × EfiStatus :=
  (turn.input.id, turn.status)

/-- `applyElements`, with all its turns. -/
def elementTurns (p : Platform) (identity : Identity) :
    List XmlNode → PermissionStore → Except PacketError (List ElementTurn)
  | [], _ => .ok []
  | element :: elements, store =>
    match getInputPermission p element with
    | .error _ => .error badXml
    | .ok input => do
      let (status, after) ← store.applyElement identity input
      let turns ← elementTurns p identity elements after
      .ok (⟨input, store, status, after⟩ :: turns)

def storeAfter (store : PermissionStore) (turns : List ElementTurn) : PermissionStore :=
  turns.foldl (fun _ turn => turn.after) store

structure PacketRun where
  start : PermissionStore
  turns : List ElementTurn

namespace PacketRun

def final (run : PacketRun) : PermissionStore := storeAfter run.start run.turns

def reports (run : PacketRun) : List (SettingId × EfiStatus) := run.turns.map ElementTurn.report

end PacketRun

/-- `applyPermissions`, up to the result document. -/
def packetRun (p : Platform) (v1Mode : Bool) (identity : Identity) (xml : List Byte)
    (store : PermissionStore) : Except PacketError PacketRun := do
  let packet ← readPacketNode p xml
  let versions ← store.readVersions packet
  let (list, append) ← readListNode v1Mode packet
  let start ← ((store.markForReplacement identity append).setVersions versions).applyDefaults identity list
  let turns ← elementTurns p identity list.children start
  .ok ⟨start, turns⟩

/-! ## The turns are those of the loop -/

theorem applyElements_eq (p : Platform) (identity : Identity) (elements : List XmlNode) (store : PermissionStore) :
    applyElements p identity elements store = (elementTurns p identity elements store).map
        fun turns => (storeAfter store turns, turns.map ElementTurn.report) := by
  induction elements generalizing store with
  | nil => rfl
  | cons element elements ih =>
    rw [applyElements, elementTurns]
    cases getInputPermission p element with
    | error status => rfl
    | ok input =>
      cases applied : store.applyElement identity input with
      | error failure => simp [applied, bind, Except.bind, Except.map]
      | ok result =>
        simp only [applied, bind, Except.bind, ih]
        cases elementTurns p identity elements result.2 <;> rfl

/-- A packet is its element loop, the check of the result document, and the sweep. -/
theorem applyPermissions_eq (p : Platform) (v1Mode : Bool) (identity : Identity) (xml : List Byte)
    (store : PermissionStore) : store.applyPermissions p v1Mode identity xml = (do
        let run ← store.packetRun p v1Mode identity xml
        let resultXmlSize ← checkResultXml p run.reports
        .ok ⟨run.final.deleteMarkedPermissionEntries, resultXmlSize⟩) := by
  rw [applyPermissions, packetRun]
  cases readPacketNode p xml with
  | error failure => rfl
  | ok packet =>
    cases versions : store.readVersions packet with
    | error failure => simp [versions, bind, Except.bind]
    | ok versions' =>
      cases list : readListNode v1Mode packet with
      | error failure => simp [versions, list, bind, Except.bind]
      | ok found =>
        simp only [versions, list, bind, Except.bind, applyElements_eq]
        cases defaults : ((store.markForReplacement identity found.2).setVersions versions').applyDefaults identity
            found.1 with
        | error failure => rfl
        | ok start =>
          simp only
          cases elementTurns p identity found.1.children start <;> rfl

theorem packetRun_of_applies {p : Platform} {v1Mode : Bool} {identity : Identity} {xml : List Byte}
    {store : PermissionStore} {applied : AppliedPermissions}
    (applies : store.applyPermissions p v1Mode identity xml = .ok applied) :
    ∃ run, store.packetRun p v1Mode identity xml = .ok run ∧
      checkResultXml p run.reports = .ok applied.resultXmlSize ∧
      applied.store = run.final.deleteMarkedPermissionEntries := by
  rw [applyPermissions_eq] at applies
  obtain ⟨run, runs, rest⟩ := Fallible.bind_eq_ok.mp applies
  obtain ⟨size, sized, result⟩ := Fallible.bind_eq_ok.mp rest
  cases result
  exact ⟨run, runs, sized, rfl⟩

/-! ## What a turn can do -/

section

variable {identity : Identity} {store after : PermissionStore} {input : InputPermission} {status : EfiStatus}

theorem updateEntry_stays (input : InputPermission) (id : SettingId) (entry : PermissionEntry) :
    decide ((updateEntry input entry).id = id) = decide (entry.id = id) := rfl

theorem find?_modifyEntry_updateEntry {entry : PermissionEntry} (found : store.findPermissionEntry input.id = some entry) :
    (store.modifyEntry input.id (updateEntry input)).findPermissionEntry input.id = some (updateEntry input entry) := by
  rw [findPermissionEntry_eq_find?] at found ⊢
  have changed : (modifyFirst (fun entry => decide (entry.id = input.id)) (updateEntry input) store.entries).find?
      (fun entry => decide (entry.id = input.id)) =
        (store.entries.find? fun entry => decide (entry.id = input.id)).map (updateEntry input) :=
    find?_modifyFirst (updateEntry_stays input input.id) store.entries
  rw [found] at changed
  exact changed

theorem find?_append_new (missing : store.findPermissionEntry input.id = none) (new : PermissionEntry)
    (isNew : new.id = input.id) :
    ({ store with entries := store.entries ++ [new] }).findPermissionEntry input.id = some new := by
  rw [findPermissionEntry_eq_find?] at missing ⊢
  simp [List.find?_append, missing, isNew]

end

/-! ## What a turn reports -/

namespace ElementTurn

def holdsMasks (turn : ElementTurn) : Bool :=
  match turn.after.findPermissionEntry turn.input.id with
  | some entry =>
    entry.pMask = turn.input.pMask && (turn.input.dMask = Mask.notSpecified || entry.dMask = turn.input.dMask)
  | none => false

/-- Success stands for an allowed element whose masks the store then holds. A numeric id that no platform
translated is an unsupported setting: it is passed over. -/
structure Truthful (identity : Identity) (turn : ElementTurn) : Prop where
  reported : turn.status = .success ↔ turn.before.maySet identity turn.input.id = true ∧
    (turn.input.id.startsWithDigit = true ∨ turn.holdsMasks = true)
  denied : turn.status ≠ .success → turn.status = .accessDenied ∧ turn.after = turn.before

def Taken (identity : Identity) (turn : ElementTurn) : Prop :=
  turn.before.applyElement identity turn.input = .ok (turn.status, turn.after)

section

variable {identity : Identity} {turn : ElementTurn}

/-- The entry that a successful element with a plain id leaves. -/
theorem Taken.holds (taken : turn.Taken identity) (succeeds : turn.status = .success)
    (plain : turn.input.id.startsWithDigit = false) :
    ∃ entry, turn.after.findPermissionEntry turn.input.id = some entry ∧ entry.markedForDeletion = false ∧
      entry.pMask = turn.input.pMask ∧ (turn.input.dMask ≠ Mask.notSpecified → entry.dMask = turn.input.dMask) := by
  obtain ⟨old, found, _, _, after⟩ | ⟨storable, missing, _, _, after⟩ | ⟨_, _, digit, _, _⟩ | ⟨_, denied, _⟩ :=
    applyElement_cases taken
  · refine ⟨updateEntry turn.input old, ?_, rfl, rfl, ?_⟩
    · rw [after]
      exact find?_modifyEntry_updateEntry found
    · intro given
      simp [updateEntry, given]
  · refine ⟨⟨turn.input.id, turn.input.pMask, newDMask identity turn.input, false, storable⟩, ?_, rfl, rfl, ?_⟩
    · rw [after]
      exact find?_append_new missing _ rfl
    · intro given
      simp [newDMask, given]
  · rw [plain] at digit
    cases digit
  · rw [denied] at succeeds
    cases succeeds

theorem Taken.holdsMasks (taken : turn.Taken identity) (succeeds : turn.status = .success)
    (plain : turn.input.id.startsWithDigit = false) : turn.holdsMasks = true := by
  obtain ⟨entry, found, _, pMask, dMask⟩ := taken.holds succeeds plain
  simp only [ElementTurn.holdsMasks, found, pMask, decide_true, Bool.true_and, Bool.or_eq_true, decide_eq_true_eq]
  by_cases missing : turn.input.dMask = Mask.notSpecified
  · exact .inl missing
  · exact .inr (dMask missing)

theorem Taken.truthful (taken : turn.Taken identity) : turn.Truthful identity := by
  have masks : turn.status = .success → turn.input.id.startsWithDigit = true ∨ turn.holdsMasks = true := by
    intro succeeds
    cases digit : turn.input.id.startsWithDigit with
    | true => exact .inl rfl
    | false => exact .inr (taken.holdsMasks succeeds digit)
  obtain ⟨_, found, allowed, succeeds, _⟩ | ⟨_, missing, allowed, succeeds, _⟩ |
    ⟨missing, allowed, _, succeeds, _⟩ | ⟨refused, denied, unchanged⟩ := applyElement_cases taken
  · have may : turn.before.maySet identity turn.input.id = true := by simp [maySet, found, allowed]
    exact ⟨⟨fun success => ⟨may, masks success⟩, fun _ => succeeds⟩, fun fails => absurd succeeds fails⟩
  · have may : turn.before.maySet identity turn.input.id = true := by simp [maySet, missing, allowed]
    exact ⟨⟨fun success => ⟨may, masks success⟩, fun _ => succeeds⟩, fun fails => absurd succeeds fails⟩
  · have may : turn.before.maySet identity turn.input.id = true := by simp [maySet, missing, allowed]
    exact ⟨⟨fun success => ⟨may, masks success⟩, fun _ => succeeds⟩, fun fails => absurd succeeds fails⟩
  · refine ⟨?_, fun _ => ⟨denied, unchanged⟩⟩
    simp [denied, refused, EfiStatus.accessDenied]

end

end ElementTurn

/-! ## The turns of a whole packet -/

def Chained (identity : Identity) : PermissionStore → List ElementTurn → Prop
  | _, [] => True
  | store, turn :: turns => turn.before = store ∧ turn.Taken identity ∧ Chained identity turn.after turns

section

variable {p : Platform} {identity : Identity} {store : PermissionStore}

theorem chained_elementTurns {elements : List XmlNode} {turns : List ElementTurn}
    (taken : elementTurns p identity elements store = .ok turns) : Chained identity store turns := by
  induction elements generalizing store turns with
  | nil =>
    cases taken
    trivial
  | cons element elements ih =>
    rw [elementTurns] at taken
    split at taken
    · contradiction
    · obtain ⟨⟨status, after⟩, applies, rest⟩ := Fallible.bind_eq_ok.mp taken
      obtain ⟨later, loops, result⟩ := Fallible.bind_eq_ok.mp rest
      cases result
      exact ⟨rfl, applies, ih loops⟩

theorem chained_packetRun {v1Mode : Bool} {xml : List Byte} {run : PacketRun}
    (runs : store.packetRun p v1Mode identity xml = .ok run) : Chained identity run.start run.turns := by
  obtain ⟨packet, _, rest⟩ := Fallible.bind_eq_ok.mp runs
  obtain ⟨versions, _, rest⟩ := Fallible.bind_eq_ok.mp rest
  obtain ⟨⟨list, append⟩, _, rest⟩ := Fallible.bind_eq_ok.mp rest
  obtain ⟨start, _, rest⟩ := Fallible.bind_eq_ok.mp rest
  obtain ⟨turns, taken, result⟩ := Fallible.bind_eq_ok.mp rest
  cases result
  exact chained_elementTurns taken

theorem Chained.taken {turns : List ElementTurn} (chained : Chained identity store turns) :
    ∀ turn ∈ turns, turn.Taken identity := by
  induction turns generalizing store with
  | nil => exact List.forall_mem_nil _
  | cons turn turns ih =>
    obtain ⟨_, first, later⟩ := chained
    exact List.forall_mem_cons.mpr ⟨first, ih later⟩

theorem Chained.append {earlier later : List ElementTurn} (chained : Chained identity store (earlier ++ later)) :
    Chained identity (storeAfter store earlier) later := by
  induction earlier generalizing store with
  | nil => exact chained
  | cons turn earlier ih => exact ih chained.2.2

/-- Turns that succeed for no element of an id leave the id's entry alone. -/
theorem Chained.find?_kept {turns : List ElementTurn} {id : SettingId} {entry : PermissionEntry}
    (chained : Chained identity store turns) (found : store.findPermissionEntry id = some entry)
    (unset : ∀ turn ∈ turns, turn.input.id = id → turn.status ≠ .success) :
    (storeAfter store turns).findPermissionEntry id = some entry := by
  induction turns generalizing store with
  | nil => exact found
  | cons turn turns ih =>
    obtain ⟨rfl, taken, later⟩ := chained
    obtain ⟨first, others⟩ := List.forall_mem_cons.mp unset
    have kept : turn.after.findPermissionEntry id = some entry := by
      by_cases same : turn.input.id = id
      · rw [(taken.truthful.denied (first same)).2]
        exact found
      · rw [findPermissionEntry_applyElement_ne same taken]
        exact found
    exact ih later kept others

/-- The sweep leaves an entry that is not marked. -/
theorem find?_deleteMarked {id : SettingId} {entry : PermissionEntry}
    (found : store.findPermissionEntry id = some entry) (unmarked : entry.markedForDeletion = false) :
    store.deleteMarkedPermissionEntries.findPermissionEntry id = some entry := by
  rw [findPermissionEntry_eq_find?] at found ⊢
  exact find?_filter_of_find? found (by simp [unmarked])

/-- What the last element that succeeds for an id has set is what the packet leaves. -/
def PacketRun.LastHolds (run : PacketRun) (after : PermissionStore) : Prop :=
  ∀ earlier turn later, run.turns = earlier ++ turn :: later →
    turn.status = .success → turn.input.id.startsWithDigit = false →
    (∀ other ∈ later, other.input.id = turn.input.id → other.status ≠ .success) →
    ∃ entry, turn.after.findPermissionEntry turn.input.id = some entry ∧
      after.findPermissionEntry turn.input.id = some entry ∧ entry.pMask = turn.input.pMask ∧
      (turn.input.dMask ≠ Mask.notSpecified → entry.dMask = turn.input.dMask)

theorem PacketRun.lastHolds_final {run : PacketRun} (chained : Chained identity run.start run.turns) :
    run.LastHolds run.final.deleteMarkedPermissionEntries := by
  intro earlier turn later split succeeds plain unset
  rw [split] at chained
  obtain ⟨_, taken, rest⟩ := chained.append
  obtain ⟨entry, found, unmarked, pMask, dMask⟩ := taken.holds succeeds plain
  have final : run.final = storeAfter turn.after later := by
    simp [PacketRun.final, storeAfter, split]
  refine ⟨entry, found, ?_, pMask, dMask⟩
  rw [final]
  exact find?_deleteMarked (rest.find?_kept found unset) unmarked

end

/-- The statuses in the result document of an applied packet are those of its elements. Success is reported
exactly for allowed elements whose masks the store then holds, numeric ids that stayed untranslated apart; and
what the last of them has set for an id outlives the sweep. -/
theorem applyPermissions_truthful {p : Platform} {v1Mode : Bool} {identity : Identity} {xml : List Byte}
    {store : PermissionStore} {applied : AppliedPermissions}
    (applies : store.applyPermissions p v1Mode identity xml = .ok applied) :
    ∃ run, store.packetRun p v1Mode identity xml = .ok run ∧
      checkResultXml p run.reports = .ok applied.resultXmlSize ∧
      (∀ turn ∈ run.turns, turn.Truthful identity) ∧ run.LastHolds applied.store := by
  obtain ⟨run, runs, sized, result⟩ := packetRun_of_applies applies
  have chained := chained_packetRun runs
  refine ⟨run, runs, sized, fun turn mem => (chained.taken turn mem).truthful, ?_⟩
  rw [result]
  exact run.lastHolds_final chained

/-- The store of a boot with one delegated setting on the unsigned list, and the Owner's packet for it. -/
theorem applyPermissions_truthful_keepSetting1 :
    ∃ store applied run, bootedStore (packetPlatform [delegatedSetting1] keepSetting1) = some store ∧
      store.applyPermissions (packetPlatform [delegatedSetting1] keepSetting1) false .signerOwner [0x3C] = .ok applied ∧
      store.packetRun (packetPlatform [delegatedSetting1] keepSetting1) false .signerOwner [0x3C] = .ok run ∧
      (∀ turn ∈ run.turns, turn.Truthful .signerOwner) ∧ run.LastHolds applied.store := by
  obtain ⟨store, applied, booted, applies, _⟩ := keepSetting1_applies
  obtain ⟨run, runs, _, truthful, last⟩ := applyPermissions_truthful applies
  exact ⟨store, applied, run, booted, applies, runs, truthful, last⟩

/-- An Owner's packet with a numeric id that the platform does not translate, and with the masks that the ZTD
key has already. -/
def unsupportedAndClosed : XmlNode :=
  permissionsPacket "2" "1" "True"
    [permissionElement "61" "128" "128", permissionElement "Dfci.ZtdKey.Enum" "1" "0"]

/-- The first element is reported as a success and leaves no entry; the second is reported as denied, and its
entry has the element's masks. -/
theorem unsupportedAndClosed_reports : ((bootedStore (packetPlatform [] unsupportedAndClosed)).bind fun store =>
      (store.packetRun (packetPlatform [] unsupportedAndClosed) false .signerOwner [0x3C]).toOption.map fun run =>
        run.turns.map fun turn => (turn.status, turn.holdsMasks)) = some [(.success, false), (.accessDenied, true)] ∧
    ((bootedStore (packetPlatform [] unsupportedAndClosed)).bind fun store =>
      (store.applyPermissions (packetPlatform [] unsupportedAndClosed) false .signerOwner
        [0x3C]).toOption).isSome = true := by
  decide +kernel

end PermissionStore

end Dfci
