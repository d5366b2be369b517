import Dfci.Packet
import Dfci.Permission.Schema
import Dfci.Support.MarkSweep

/-! # Applying a permission packet to the store -/

namespace Dfci

namespace PermissionStore

open PermissionXml FirstMatch MarkSweep

def badXml : PacketError := ⟨.badXml, .noMapping, .refl true, .refl true⟩

/-- The `Version` and the new `Lsv` of a packet that passed the version checks. -/
structure PacketVersions where
  version : Nat
  lsv : Nat
  version_lt : version < 2 ^ 32
  lsv_le : lsv ≤ version

/-- The version checks of `ApplyPermissionsInXml`. -/
def readVersions (store : PermissionStore) (packet : XmlNode) : Except PacketError PacketVersions :=
  match packet.findFirstChildNodeByName versionElementName with
  | none => .error badXml
  | some versionNode =>
    if large : 0xFFFFFFFF < versionNode.value.decimalToUintn then
      .error badXml
    else if older : versionNode.value.decimalToUintn < store.lsv then
      .error ⟨.versionError, .accessDenied, .refl true, .refl true⟩
    else
      match packet.findFirstChildNodeByName lsvElementName with
      | none => .error badXml
      | some lsvNode =>
        if 0xFFFFFFFF < lsvNode.value.decimalToUintn then
          .error badXml
        else if above : versionNode.value.decimalToUintn < lsvNode.value.decimalToUintn then
          .error ⟨.dataInvalid, .noMapping, .refl true, .refl true⟩
        else
          .ok ⟨versionNode.value.decimalToUintn, max store.lsv lsvNode.value.decimalToUintn,
            versionNode.number_lt large, versionNode.lsv_le lsvNode older above⟩

def setVersions (store : PermissionStore) (versions : PacketVersions) : PermissionStore :=
  { store with
    version := versions.version
    lsv := versions.lsv
    version_lt := versions.version_lt
    lsv_le := versions.lsv_le }

/-- The default attributes of the list, which only an identity in `DefaultDMask` may change. -/
def applyDefaults (store : PermissionStore) (identity : Identity) (list : XmlNode) :
    Except PacketError PermissionStore :=
  match getPermissionsListDefaultPMask list with
  | .error .notFound => .ok store
  | .error _ => .error badXml
  | .ok (pMask, dMask) =>
    if store.defaultDMask.has identity then
      .ok { store with defaultPMask := pMask, defaultDMask := dMask.getD store.defaultDMask }
    else
      .ok store

/-- What an element that may change an entry does to it. A missing `DMask` leaves the old one. -/
def updateEntry (input : InputPermission) (entry : PermissionEntry) : PermissionEntry :=
  { entry with
    pMask := input.pMask
    dMask := if input.dMask = Mask.notSpecified then entry.dMask else input.dMask
    markedForDeletion := false }

/-- The `DMask` of a new entry. A missing one delegates to the signer. -/
def newDMask (identity : Identity) (input : InputPermission) : Mask :=
  if input.dMask = Mask.notSpecified then identity.bit else input.dMask

def applyElement (store : PermissionStore) (identity : Identity) (input : InputPermission) :
    Except PacketError (EfiStatus × PermissionStore) :=
  if input.id.chars = [] then
    -- no entry is found for a NULL id: `AddPermissionEntry` fails, or `SetOutputPermissionStatus` after the denial
    if store.defaultDMask.has identity then
      .error ⟨.dataSystemError, .aborted, .refl true, .refl true⟩
    else
      .error ⟨.dataSystemError, .deviceError, .refl true, .refl true⟩
  else
    match store.findPermissionEntry input.id with
    | some entry =>
      if entry.dMask.has identity then
        .ok (.success, store.modifyEntry input.id (updateEntry input))
      else
        .ok (.accessDenied, store)
    | none =>
      if store.defaultDMask.has identity then
        let (status, added) := store.addPermissionEntry input.id input.pMask (newDMask identity input)
        if status.isError then .error ⟨.dataSystemError, .aborted, .refl true, .refl true⟩ else .ok (.success, added)
      else
        .ok (.accessDenied, store)

/-- The element loop of `ApplyPermissionsInXml`, with the results it writes to the result document. -/
def applyElements (p : Platform) (identity : Identity) :
    List XmlNode → PermissionStore → Except PacketError (PermissionStore × List (SettingId × EfiStatus))
  | [], store => .ok (store, [])
  | element :: elements, store =>
    match getInputPermission p element with
    | .error _ => .error badXml
    | .ok input => do
      let (status, store) ← store.applyElement identity input
      let (store, results) ← applyElements p identity elements store
      .ok (store, (input.id, status) :: results)

/-- The packet's document, up to and including its `<PermissionsPacket>` node. -/
def readPacketNode (p : Platform) (xml : List Byte) : Except PacketError XmlNode :=
  match p.createXmlTree xml with
  | .error _ => .error badXml
  | .ok root =>
    if p.getTimeStatus.isError then
      .error ⟨.dataSystemError, .aborted, .refl true, .refl true⟩
    else
      match getPermissionPacketNode root with
      | none => .error badXml
      | some packet => .ok packet

/-- The packet's `<Permissions>` node and its required `Append` attribute. -/
def readListNode (v1Mode : Bool) (packet : XmlNode) : Except PacketError (XmlNode × Bool) :=
  match getPermissionsListNodeFromPacketNode packet with
  | none => .error badXml
  | some list =>
    match permissionListEntriesAppend list with
    | .error _ => .error badXml
    | .ok appendToExisting =>
      if appendToExisting && v1Mode then .error badXml else .ok (list, appendToExisting)

def checkResultXml (p : Platform) (results : List (SettingId × EfiStatus)) : Except PacketError Nat :=
  match p.resultXmlSize results with
  | .error _ => .error ⟨.dataApplied, .aborted, .refl true, .refl true⟩
  | .ok size =>
    if maxAllowableDfciResultVarSize < size then .error ⟨.dataApplied, .aborted, .refl true, .refl true⟩ else .ok size

structure AppliedPermissions where
  store : PermissionStore
  resultXmlSize : Nat

/-- A packet that does not append marks its signer's entries, to drop those it does not name. -/
def markForReplacement (store : PermissionStore) (identity : Identity) (append : Bool) : PermissionStore :=
  if append then store else store.markPermissionEntriesForDeletion identity

/-- The body of `ApplyPermissionsInXml`, from `CreateXmlTree` to its `EXIT` label, for the identity of the
signer. -/
def applyPermissions (p : Platform) (v1Mode : Bool) (identity : Identity) (xml : List Byte)
    (store : PermissionStore) : Except PacketError AppliedPermissions := do
  let packet ← readPacketNode p xml
  let versions ← store.readVersions packet
  let (list, append) ← readListNode v1Mode packet
  let marked := store.markForReplacement identity append
  let defaulted ← (marked.setVersions versions).applyDefaults identity list
  let (applied, results) ← applyElements p identity list.children defaulted
  let resultXmlSize ← checkResultXml p results
  .ok ⟨applied.deleteMarkedPermissionEntries, resultXmlSize⟩

/-! ## What the defaults and an element can do -/

theorem applyDefaults_cases {store defaulted : PermissionStore} {identity : Identity} {list : XmlNode}
    (applies : store.applyDefaults identity list = .ok defaulted) :
    defaulted = store ∨ ∃ pMask dMask, getPermissionsListDefaultPMask list = .ok (pMask, dMask) ∧
      store.defaultDMask.has identity = true ∧
      defaulted = { store with defaultPMask := pMask, defaultDMask := dMask.getD store.defaultDMask } := by
  rw [applyDefaults] at applies
  split at applies
  · cases applies
    exact .inl rfl
  · contradiction
  · rename_i pMask dMask reads
    split at applies
    · rename_i allowed
      cases applies
      exact .inr ⟨pMask, dMask, reads, allowed, rfl⟩
    · cases applies
      exact .inl rfl

/-- The signer may set the id: it is delegated the entry, or new entries where there is none. -/
def maySet (store : PermissionStore) (identity : Identity) (id : SettingId) : Bool :=
  match store.findPermissionEntry id with
  | some entry => entry.dMask.has identity
  | none => store.defaultDMask.has identity

section

variable {identity : Identity} {store after : PermissionStore} {input : InputPermission} {status : EfiStatus}

theorem filled_of_applyElement (applies : store.applyElement identity input = .ok (status, after)) :
    input.id.chars ≠ [] := by
  intro empty
  rw [applyElement, if_pos empty] at applies
  split at applies <;> cases applies

/-- An element updates its entry, adds one, is ignored for its numeric id, or is denied. -/
theorem applyElement_cases (applies : store.applyElement identity input = .ok (status, after)) :
    (∃ entry, store.findPermissionEntry input.id = some entry ∧ entry.dMask.has identity = true ∧
      status = .success ∧ after = store.modifyEntry input.id (updateEntry input)) ∨
    (∃ storable : StorableId input.id, store.findPermissionEntry input.id = none ∧
      store.defaultDMask.has identity = true ∧ status = .success ∧ after = { store with
        entries := store.entries ++ [⟨input.id, input.pMask, newDMask identity input, false, storable⟩] }) ∨
    (store.findPermissionEntry input.id = none ∧ store.defaultDMask.has identity = true ∧
      input.id.startsWithDigit = true ∧ status = .success ∧ after = store) ∨
    (store.maySet identity input.id = false ∧ status = .accessDenied ∧ after = store) := by
  rw [applyElement, if_neg (filled_of_applyElement applies)] at applies
  split at applies
  · rename_i entry found
    split at applies
    · rename_i allowed
      cases applies
      exact .inl ⟨entry, found, allowed, rfl, rfl⟩
    · rename_i refused
      cases applies
      exact .inr (.inr (.inr ⟨by simpa [maySet, found] using refused, rfl, rfl⟩))
  · rename_i missing
    split at applies
    · rename_i allowed
      by_cases storable : StorableId input.id
      · rw [addPermissionEntry_storable storable] at applies
        cases applies
        exact .inr (.inl ⟨storable, missing, allowed, rfl, rfl⟩)
      · by_cases digit : input.id.startsWithDigit = true
        · rw [addPermissionEntry_digit digit] at applies
          cases applies
          exact .inr (.inr (.inl ⟨missing, allowed, digit, rfl, rfl⟩))
        · rw [addPermissionEntry_refused digit storable] at applies
          cases applies
    · rename_i refused
      cases applies
      exact .inr (.inr (.inr ⟨by simpa [maySet, missing] using refused, rfl, rfl⟩))

/-- An element does not touch what the store has for another id. -/
theorem findPermissionEntry_applyElement_ne {id : SettingId} (other : input.id ≠ id)
    (applies : store.applyElement identity input = .ok (status, after)) :
    after.findPermissionEntry id = store.findPermissionEntry id := by
  obtain ⟨_, _, _, _, rfl⟩ | ⟨storable, _, _, _, rfl⟩ | ⟨_, _, _, _, rfl⟩ | ⟨_, _, rfl⟩ := applyElement_cases applies
  · exact findPermissionEntry_modifyEntry_ne store other fun _ => rfl
  · have kept := findPermissionEntry_addPermissionEntry_ne store other input.pMask (newDMask identity input)
    rwa [addPermissionEntry_storable storable] at kept
  · rfl
  · rfl

/-- What every element of a list keeps, the loop keeps. -/
theorem applyElements_invariant (holds : PermissionStore → Prop) {p : Platform} {elements : List XmlNode}
    {results : List (SettingId × EfiStatus)}
    (keeps : ∀ element ∈ elements, ∀ input, getInputPermission p element = .ok input →
      ∀ {before after status}, before.applyElement identity input = .ok (status, after) → holds before → holds after)
    (initially : holds store) (applies : applyElements p identity elements store = .ok (after, results)) :
    holds after := by
  induction elements generalizing store results with
  | nil =>
    cases applies
    exact initially
  | cons element elements ih =>
    obtain ⟨first, others⟩ := List.forall_mem_cons.mp keeps
    rw [applyElements] at applies
    split at applies
    · contradiction
    · rename_i input reads
      obtain ⟨⟨status, middle⟩, stepApplies, rest⟩ := Fallible.bind_eq_ok.mp applies
      obtain ⟨⟨last, results⟩, loopApplies, result⟩ := Fallible.bind_eq_ok.mp rest
      cases result
      exact ih others (first input reads stepApplies initially) loopApplies

end

/-! ## What the steps of a packet do to the store -/

def marks (store : PermissionStore) : List (SettingId × Bool) :=
  store.entries.map fun entry => (entry.id, entry.markedForDeletion)

structure SameHeader (before after : PermissionStore) : Prop where
  version : after.version = before.version
  lsv : after.lsv = before.lsv
  defaultPMask : after.defaultPMask = before.defaultPMask
  defaultDMask : after.defaultDMask = before.defaultDMask

def MarksDelegated (identity : Identity) (store : PermissionStore) : Prop :=
  ∀ entry ∈ store.entries, entry.markedForDeletion = true → entry.dMask.has identity = true

/-- What elements that name `names` can do for a signer. Their ids are unmarked at the first entry, new
entries are for named ids and need the signer in `DefaultDMask`, and entries that are not delegated to
the signer stay. -/
structure ElementsEffect (identity : Identity) (names : List SettingId) (before after : PermissionStore) : Prop where
  header : SameHeader before after
  marks : ∃ added : List SettingId, after.marks = unmarkAll names before.marks ++ added.map (·, false) ∧
    ∀ id ∈ added, id ∉ before.ids ∧ id ∈ names ∧ before.defaultDMask.has identity = true
  kept : ∀ entry ∈ before.entries, entry.dMask.has identity = false → entry ∈ after.entries
  delegated : MarksDelegated identity after

theorem marks_keys (store : PermissionStore) : store.marks.map Prod.fst = store.ids := by
  simp [marks, ids]

theorem marks_modifyEntry_updateEntry (store : PermissionStore) (input : InputPermission) :
    (store.modifyEntry input.id (updateEntry input)).marks = unmark store.marks input.id :=
  map_modifyFirst_comm (fun entry : PermissionEntry => decide (entry.id = input.id)) (updateEntry input)
    (fun mark : SettingId × Bool => decide (mark.1 = input.id)) (fun mark => (mark.1, false))
    (fun entry => (entry.id, entry.markedForDeletion)) store.entries (fun _ => rfl) (fun _ _ => rfl)

theorem unmark_marks_eq_self {store : PermissionStore} {id : SettingId}
    (unmarked : ∀ entry, store.entries.find? (fun entry => entry.id = id) = some entry →
      entry.markedForDeletion = false) : unmark store.marks id = store.marks := by
  have same := map_modifyFirst_comm (fun entry : PermissionEntry => decide (entry.id = id)) (fun entry => entry)
    (fun mark : SettingId × Bool => decide (mark.1 = id)) (fun mark => (mark.1, false))
    (fun entry => (entry.id, entry.markedForDeletion)) store.entries (fun _ => rfl)
    (fun entry found => by simp [unmarked entry found])
  rw [modifyFirst_unchanged] at same
  exact same.symm

section

variable {identity : Identity} {store : PermissionStore} {id : SettingId}

/-- A denied element changes nothing, and its entry was not marked. -/
theorem ElementsEffect.denied (delegated : MarksDelegated identity store)
    (unmarked : ∀ entry, store.entries.find? (fun entry => entry.id = id) = some entry → entry.markedForDeletion = false)
    : ElementsEffect identity [id] store store where
  header := ⟨rfl, rfl, rfl, rfl⟩
  marks := ⟨[], by simp [unmark_marks_eq_self unmarked], by simp⟩
  kept := fun _ mem _ => mem
  delegated := delegated

theorem ElementsEffect.updated {input : InputPermission} {entry : PermissionEntry}
    (delegated : MarksDelegated identity store)
    (found : store.entries.find? (fun entry => entry.id = input.id) = some entry)
    (allowed : entry.dMask.has identity = true) :
    ElementsEffect identity [input.id] store (store.modifyEntry input.id (updateEntry input)) where
  header := ⟨rfl, rfl, rfl, rfl⟩
  marks := ⟨[], by simp [marks_modifyEntry_updateEntry], by simp⟩
  kept := by
    intro other mem undelegated
    apply mem_modifyFirst_of_ne_first mem
    intro isOther
    rw [found, Option.some.injEq] at isOther
    rw [isOther, undelegated] at allowed
    contradiction
  delegated := by
    intro other mem marked
    rcases mem_modifyFirst mem with old | ⟨original, _, rfl⟩
    · exact delegated other old marked
    · simp [updateEntry] at marked

theorem ElementsEffect.added (delegated : MarksDelegated identity store)
    (missing : ∀ entry ∈ store.entries, entry.id ≠ id) (allowed : store.defaultDMask.has identity = true)
    (pMask dMask : Mask) (storable : StorableId id) : ElementsEffect identity [id] store
      { store with entries := store.entries ++ [⟨id, pMask, dMask, false, storable⟩] } where
  header := ⟨rfl, rfl, rfl, rfl⟩
  marks := by
    have untouched : unmark store.marks id = store.marks := by
      apply unmark_marks_eq_self
      intro entry found
      exact absurd (by simpa using List.find?_some found) (missing entry (List.mem_of_find?_eq_some found))
    refine ⟨[id], ?_, ?_⟩
    · rw [unmarkAll_cons, unmarkAll_nil, untouched]
      simp [PermissionStore.marks]
    · intro other isNew
      rw [List.mem_singleton] at isNew
      subst isNew
      refine ⟨?_, List.mem_singleton_self _, allowed⟩
      intro present
      obtain ⟨entry, mem, same⟩ := List.mem_map.mp present
      exact missing entry mem same
  kept := fun _ mem _ => List.mem_append_left _ mem
  delegated := by
    intro entry mem marked
    rcases List.mem_append.mp mem with old | new
    · exact delegated entry old marked
    · rw [List.mem_singleton] at new
      rw [new] at marked
      contradiction

theorem applyElement_effect {store after : PermissionStore} {input : InputPermission} {status : EfiStatus}
    (delegated : MarksDelegated identity store) (applies : store.applyElement identity input = .ok (status, after)) :
    ElementsEffect identity [input.id] store after := by
  obtain ⟨entry, found, allowed, _, rfl⟩ | ⟨storable, missing, allowed, _, rfl⟩ | ⟨missing, _, _, _, rfl⟩ |
    ⟨refused, _, rfl⟩ := applyElement_cases applies
  · rw [findPermissionEntry_eq_find?] at found
    exact .updated delegated found allowed
  · exact .added delegated (findPermissionEntry_eq_none_iff.mp missing) allowed _ _ storable
  · refine .denied delegated fun entry found => ?_
    rw [← findPermissionEntry_eq_find?, missing] at found
    cases found
  · refine .denied delegated fun entry found => ?_
    rw [← findPermissionEntry_eq_find?] at found
    simp only [maySet, found] at refused
    by_contra marked
    have allowed := delegated entry (findPermissionEntry_eq_some found).1 (by simpa using marked)
    rw [refused] at allowed
    cases allowed

end

end PermissionStore

end Dfci
