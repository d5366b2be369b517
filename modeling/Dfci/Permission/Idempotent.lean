import Dfci.Permission.AntiRollback
import Dfci.Permission.Results
import Dfci.Support.Upsert

/-! # The same permission packet a second time

The first application changes the masks that decide what the second may do: an element can take its signer out
of the entry's `DMask`, and the list's attributes can take it out of `DefaultDMask`. The entries still come out
the same. What can differ are the statuses, and with them the size of the result document. -/

namespace Dfci

theorem Identity.bit_has (identity : Identity) : identity.bit.has identity = true := by
  cases identity <;> decide

namespace PermissionStore

open PermissionXml FirstMatch Upsert

/-! ## Elements as requests to a keyed list -/

def setEntry (identity : Identity) (input : InputPermission) (entry : PermissionEntry) : PermissionEntry :=
  if entry.dMask.has identity then updateEntry input entry else entry

def newEntry (identity : Identity) (defaultDMask : Mask) (input : InputPermission) : Option PermissionEntry :=
  if defaultDMask.has identity then
    if storable : StorableId input.id then
      some ⟨input.id, input.pMask, newDMask identity input, false, storable⟩
    else
      none
  else
    none

theorem setEntry_id (identity : Identity) (input : InputPermission) (entry : PermissionEntry) :
    (setEntry identity input entry).id = entry.id := by
  rw [setEntry]
  split <;> rfl

theorem newEntry_eq_some {identity : Identity} {defaultDMask : Mask} {input : InputPermission}
    {entry : PermissionEntry} (creates : newEntry identity defaultDMask input = some entry) :
    ∃ storable : StorableId input.id, defaultDMask.has identity = true ∧
      entry = ⟨input.id, input.pMask, newDMask identity input, false, storable⟩ := by
  rw [newEntry] at creates
  split at creates
  · rename_i allowed
    split at creates
    · rename_i storable
      exact ⟨storable, allowed, (Option.some.inj creates).symm⟩
    · cases creates
  · cases creates

theorem newEntry_id {identity : Identity} {defaultDMask : Mask} (input : InputPermission) (entry : PermissionEntry)
    (creates : newEntry identity defaultDMask input = some entry) : entry.id = input.id := by
  obtain ⟨_, _, rfl⟩ := newEntry_eq_some creates
  rfl

def elementRules (identity : Identity) (defaultDMask : Mask) : Rules InputPermission PermissionEntry SettingId where
  requestKey := InputPermission.id
  key := PermissionEntry.id
  act := setEntry identity
  create := newEntry identity defaultDMask
  act_key := setEntry_id identity
  create_key := newEntry_id

/-- The element has an id, and does not make `AddPermissionEntry` fail. -/
structure Fits (identity : Identity) (defaultDMask : Mask) (input : InputPermission) : Prop where
  filled : input.id.chars ≠ []
  adds : defaultDMask.has identity = true → input.id.startsWithDigit = true ∨ StorableId input.id

section

variable {p : Platform} {identity : Identity} {store : PermissionStore}

theorem fits_of_applyElement {input : InputPermission} {status : EfiStatus} {after : PermissionStore}
    (applies : store.applyElement identity input = .ok (status, after)) : Fits identity store.defaultDMask input := by
  refine ⟨filled_of_applyElement applies, fun allowed => ?_⟩
  have ofEntry : ∀ entry, store.findPermissionEntry input.id = some entry → StorableId input.id := by
    intro entry found
    exact (findPermissionEntry_eq_some found).2 ▸ entry.storable
  obtain ⟨entry, found, _⟩ | ⟨storable, _⟩ | ⟨_, _, digit, _⟩ | ⟨refused, _⟩ := applyElement_cases applies
  · exact .inr (ofEntry entry found)
  · exact .inr storable
  · exact .inl digit
  · -- denied although new entries are delegated: there is an entry
    cases found : store.findPermissionEntry input.id with
    | none => simp [maySet, found, allowed] at refused
    | some entry => exact .inr (ofEntry entry found)

/-- An element that fits is a request to the entry list. -/
theorem applyElement_upsert {input : InputPermission} (fits : Fits identity store.defaultDMask input) :
    ∃ status, store.applyElement identity input = .ok (status, { store with
      entries := (elementRules identity store.defaultDMask).upsert store.entries input }) := by
  rw [applyElement, if_neg fits.filled]
  cases found : store.findPermissionEntry input.id with
  | some entry =>
    have first := found
    rw [findPermissionEntry_eq_find?] at first
    have present : store.entries.any (fun entry => entry.id = input.id) = true := by
      have member := findPermissionEntry_eq_some found
      exact List.any_eq_true.mpr ⟨entry, member.1, by simp [member.2]⟩
    have updated : (elementRules identity store.defaultDMask).upsert store.entries input =
        modifyFirst (fun entry => entry.id = input.id) (setEntry identity input) store.entries := by
      rw [Rules.upsert]
      exact if_pos present
    rw [updated]
    cases allowed : entry.dMask.has identity with
    | true =>
      have same : modifyFirst (fun entry => entry.id = input.id) (setEntry identity input) store.entries =
          modifyFirst (fun entry => entry.id = input.id) (updateEntry input) store.entries := by
        apply modifyFirst_congr
        intro other isFirst
        rw [first, Option.some.injEq] at isFirst
        simp [setEntry, ← isFirst, allowed]
      exact ⟨.success, by simp [allowed, modifyEntry, same]⟩
    | false =>
      have same : modifyFirst (fun entry => entry.id = input.id) (setEntry identity input) store.entries =
          store.entries := by
        refine Eq.trans (modifyFirst_congr ?_) (modifyFirst_unchanged _ store.entries)
        intro other isFirst
        rw [first, Option.some.injEq] at isFirst
        simp [setEntry, ← isFirst, allowed]
      exact ⟨.accessDenied, by simp [allowed, same]⟩
  | none =>
    have absent := findPermissionEntry_eq_none_iff.mp found
    have added : (elementRules identity store.defaultDMask).upsert store.entries input =
        store.entries ++ (newEntry identity store.defaultDMask input).toList := by
      rw [Rules.upsert]
      refine if_neg ?_
      rw [List.any_eq_true]
      intro found
      obtain ⟨entry, member, same⟩ := found
      exact absent entry member (of_decide_eq_true same)
    rw [added]
    cases allowed : store.defaultDMask.has identity with
    | false => exact ⟨.accessDenied, by simp [allowed, newEntry]⟩
    | true =>
      refine ⟨.success, ?_⟩
      by_cases storable : StorableId input.id
      · simp [allowed, newEntry, storable, addPermissionEntry_storable storable]
      · have digit : input.id.startsWithDigit = true := (fits.adds allowed).resolve_right storable
        simp [allowed, newEntry, storable, addPermissionEntry_digit digit]

def Reads (p : Platform) (elements : List XmlNode) (inputs : List InputPermission) : Prop :=
  elements.map (getInputPermission p) = inputs.map .ok

theorem reads_of_elementTurns {elements : List XmlNode} {turns : List ElementTurn}
    (taken : elementTurns p identity elements store = .ok turns) :
    ∃ inputs, Reads p elements inputs ∧ ∀ input ∈ inputs, Fits identity store.defaultDMask input := by
  induction elements generalizing store turns with
  | nil => exact ⟨[], rfl, List.forall_mem_nil _⟩
  | cons element elements ih =>
    rw [elementTurns] at taken
    split at taken
    · contradiction
    · rename_i input reads
      obtain ⟨⟨status, after⟩, applies, rest⟩ := Fallible.bind_eq_ok.mp taken
      obtain ⟨later, loops, _⟩ := Fallible.bind_eq_ok.mp rest
      have fits := fits_of_applyElement applies
      obtain ⟨_, upserts⟩ := applyElement_upsert fits
      rw [applies] at upserts
      cases upserts
      obtain ⟨inputs, readsRest, fitsRest⟩ := ih loops
      exact ⟨input :: inputs, by simpa [Reads, reads] using readsRest, List.forall_mem_cons.mpr ⟨fits, fitsRest⟩⟩

theorem elementTurns_of_reads {elements : List XmlNode} {inputs : List InputPermission}
    (reads : Reads p elements inputs) (fits : ∀ input ∈ inputs, Fits identity store.defaultDMask input) :
    ∃ turns, elementTurns p identity elements store = .ok turns ∧ storeAfter store turns = { store with
        entries := (elementRules identity store.defaultDMask).upsertAll inputs store.entries } := by
  induction elements generalizing store inputs with
  | nil =>
    cases inputs with
    | nil => exact ⟨[], rfl, rfl⟩
    | cons input inputs => simp [Reads] at reads
  | cons element elements ih =>
    cases inputs with
    | nil => simp [Reads] at reads
    | cons input inputs =>
      simp only [Reads, List.map_cons, List.cons.injEq] at reads
      obtain ⟨readsFirst, readsRest⟩ := reads
      obtain ⟨fitsFirst, fitsRest⟩ := List.forall_mem_cons.mp fits
      obtain ⟨status, applies⟩ := applyElement_upsert fitsFirst
      generalize upserted : ({ store with
        entries := (elementRules identity store.defaultDMask).upsert store.entries input } : PermissionStore) = after
        at applies
      have sameDefault : after.defaultDMask = store.defaultDMask := by rw [← upserted]
      obtain ⟨turns, loops, final⟩ := ih readsRest (sameDefault.symm ▸ fitsRest)
      refine ⟨⟨input, store, status, after⟩ :: turns, ?_, ?_⟩
      · simp [elementTurns, readsFirst, applies, loops, bind, Except.bind]
      · refine Eq.trans final ?_
        rw [← upserted]
        rfl

end

/-! ## One entry under the same elements again -/

def markEntry (identity : Identity) (append : Bool) (entry : PermissionEntry) : PermissionEntry :=
  if append then entry
  else if entry.dMask.highestUserIs identity then { entry with markedForDeletion := true } else entry

def kept (entry : PermissionEntry) : Bool := !entry.markedForDeletion

theorem deleteMarked_kept {store : PermissionStore} (allKept : store.entries.filter kept = store.entries) :
    store.deleteMarkedPermissionEntries = store := by
  rw [deleteMarkedPermissionEntries]
  rw [show store.entries.filter (fun entry => !entry.markedForDeletion) = store.entries from allKept]

theorem entries_markForReplacement (store : PermissionStore) (identity : Identity) (append : Bool) :
    (store.markForReplacement identity append).entries = store.entries.map (markEntry identity append) := by
  cases append with
  | true => exact (List.map_id' store.entries).symm
  | false => rfl

section

variable (identity : Identity) (append : Bool) {entry : PermissionEntry}

theorem markEntry_id (entry : PermissionEntry) : (markEntry identity append entry).id = entry.id := by
  rw [markEntry]
  repeat' split
  all_goals rfl

theorem markEntry_pMask (entry : PermissionEntry) : (markEntry identity append entry).pMask = entry.pMask := by
  rw [markEntry]
  repeat' split
  all_goals rfl

theorem markEntry_dMask (entry : PermissionEntry) : (markEntry identity append entry).dMask = entry.dMask := by
  rw [markEntry]
  repeat' split
  all_goals rfl

/-- An entry that is not delegated to the signer is not marked. -/
theorem markEntry_refused (refused : entry.dMask.has identity = false) : markEntry identity append entry = entry := by
  have notHighest : ¬ entry.dMask.highestUserIs identity = true := by
    intro highest
    rw [Mask.has_of_highestUserIs highest] at refused
    cases refused
  simp [markEntry, notHighest]

/-- Where marking left no mark, it leaves none a second time. -/
theorem markEntry_again (unmarked : (markEntry identity append entry).markedForDeletion = false) :
    markEntry identity append (markEntry identity append entry) = markEntry identity append entry := by
  cases append with
  | true => rfl
  | false =>
    by_cases highest : entry.dMask.highestUserIs identity = true
    · simp [markEntry, highest] at unmarked
    · simp [markEntry, highest]

theorem has_of_marked (unmarked : entry.markedForDeletion = false)
    (marked : (markEntry identity append entry).markedForDeletion = true) : entry.dMask.has identity = true := by
  cases allowed : entry.dMask.has identity with
  | true => rfl
  | false =>
    rw [markEntry_refused identity append allowed, unmarked] at marked
    cases marked

end

section

variable {identity : Identity} {defaultDMask : Mask}

theorem actAll_refused {entry : PermissionEntry} (refused : entry.dMask.has identity = false)
    (inputs : List InputPermission) : (elementRules identity defaultDMask).actAll inputs entry = entry := by
  induction inputs with
  | nil => rfl
  | cons input inputs ih =>
    have unchanged : (elementRules identity defaultDMask).act input entry = entry := by
      simp [elementRules, setEntry, refused]
    rw [Rules.actAll_cons, unchanged, ih]

theorem act_allowed {entry : PermissionEntry} (allowed : entry.dMask.has identity = true) (input : InputPermission) :
    (elementRules identity defaultDMask).act input entry = updateEntry input entry := by
  simp [elementRules, setEntry, allowed]

theorem actAll_unmarked {entry : PermissionEntry} (unmarked : entry.markedForDeletion = false)
    (inputs : List InputPermission) :
    ((elementRules identity defaultDMask).actAll inputs entry).markedForDeletion = false := by
  induction inputs generalizing entry with
  | nil => exact unmarked
  | cons input inputs ih =>
    rw [Rules.actAll_cons]
    cases allowed : entry.dMask.has identity with
    | true =>
      rw [act_allowed allowed]
      exact ih rfl
    | false =>
      have unchanged : (elementRules identity defaultDMask).act input entry = entry := by
        simp [elementRules, setEntry, allowed]
      rw [unchanged]
      exact ih unmarked

theorem entry_ext {first second : PermissionEntry} (id : first.id = second.id) (pMask : first.pMask = second.pMask)
    (dMask : first.dMask = second.dMask) (mark : first.markedForDeletion = second.markedForDeletion) :
    first = second := by
  cases first
  cases second
  simp_all

/-- The elements take an entry to where they took another one, when it starts with the delegation mask that
they left there and the signer is in it: then no element is denied, and each mask comes from the last element
that gives one. -/
theorem actAll_eq {first second : PermissionEntry} {inputs : List InputPermission} (id : second.id = first.id)
    (allowed : ((elementRules identity defaultDMask).actAll inputs first).dMask.has identity = true)
    (dMask : second.dMask = ((elementRules identity defaultDMask).actAll inputs first).dMask)
    (pMask : second.pMask = first.pMask ∨
      second.pMask = ((elementRules identity defaultDMask).actAll inputs first).pMask)
    (mark : second.markedForDeletion = first.markedForDeletion ∨ inputs ≠ []) :
    (elementRules identity defaultDMask).actAll inputs second =
      (elementRules identity defaultDMask).actAll inputs first := by
  induction inputs generalizing first second with
  | nil =>
    have samePMask : second.pMask = first.pMask := pMask.elim (fun same => same) fun same => same
    have sameMark : second.markedForDeletion = first.markedForDeletion := mark.resolve_right fun nonempty => nonempty rfl
    exact entry_ext id samePMask dMask sameMark
  | cons input inputs ih =>
    have firstAllowed : first.dMask.has identity = true := by
      cases refused : first.dMask.has identity with
      | true => rfl
      | false =>
        rw [actAll_refused refused, refused] at allowed
        cases allowed
    have secondAllowed : second.dMask.has identity = true := dMask ▸ allowed
    simp only [Rules.actAll_cons, act_allowed firstAllowed] at allowed dMask pMask ⊢
    rw [act_allowed secondAllowed]
    by_cases given : input.dMask = Mask.notSpecified
    · -- the element leaves both delegation masks as they are
      refine ih id allowed ?_ (.inl rfl) (.inl rfl)
      rw [← dMask]
      simp [updateEntry, given]
    · have same : updateEntry input second = updateEntry input first := by
        refine entry_ext id rfl ?_ rfl
        simp [updateEntry, given]
      rw [same]

/-- An entry that the elements left unmarked is what they make of it again, after another marking. -/
theorem actAll_again (append : Bool) {entry : PermissionEntry} {inputs : List InputPermission}
    (mark : (markEntry identity append ((elementRules identity defaultDMask).actAll inputs entry)).markedForDeletion =
      entry.markedForDeletion ∨ inputs ≠ []) : (elementRules identity defaultDMask).actAll inputs
        (markEntry identity append ((elementRules identity defaultDMask).actAll inputs entry)) =
      (elementRules identity defaultDMask).actAll inputs entry := by
  cases allowed : ((elementRules identity defaultDMask).actAll inputs entry).dMask.has identity with
  | false => rw [markEntry_refused identity append allowed, actAll_refused allowed]
  | true =>
    refine actAll_eq ?_ allowed (markEntry_dMask identity append _) (.inr (markEntry_pMask identity append _)) mark
    rw [markEntry_id]
    exact (elementRules identity defaultDMask).actAll_key inputs entry

theorem elementRules_settles (identity : Identity) (defaultDMask : Mask) (append : Bool) :
    (elementRules identity defaultDMask).Settles (markEntry identity append) kept
      (fun entry => entry.markedForDeletion = false) where
  mark_key := markEntry_id identity append
  again := by
    intro entry inputs _ keeps
    have unmarked : ((elementRules identity defaultDMask).actAll inputs
        (markEntry identity append entry)).markedForDeletion = false := by
      simpa [kept] using keeps
    refine actAll_again append ?_
    cases inputs with
    | cons input inputs => exact .inr (List.cons_ne_nil _ _)
    | nil =>
      left
      exact congrArg PermissionEntry.markedForDeletion (markEntry_again identity append unmarked)
  dropped := by
    intro entry inputs old drops
    have marked : ((elementRules identity defaultDMask).actAll inputs
        (markEntry identity append entry)).markedForDeletion = true := by
      simpa [kept] using drops
    cases inputs with
    | nil => rfl
    | cons input inputs =>
      -- an entry that is marked is delegated to the signer, and the first element takes the mark away
      have noMark : ((elementRules identity defaultDMask).act input
          (markEntry identity append entry)).markedForDeletion = false := by
        cases fresh : (markEntry identity append entry).markedForDeletion with
        | false => exact actAll_unmarked fresh [input]
        | true =>
          have allowed := has_of_marked identity append old fresh
          rw [← markEntry_dMask identity append] at allowed
          rw [act_allowed allowed]
          rfl
      rw [Rules.actAll_cons, actAll_unmarked noMark] at marked
      cases marked
  created := by
    intro input entry inputs creates
    obtain ⟨storable, _, isNew⟩ := newEntry_eq_some creates
    have unmarked : entry.markedForDeletion = false := by rw [isNew]
    refine ⟨by simp [kept, actAll_unmarked unmarked], ?_⟩
    -- as if the element had found an entry that is delegated to its signer
    let found : PermissionEntry := ⟨input.id, input.pMask, identity.bit, false, storable⟩
    have asFound : (elementRules identity defaultDMask).act input found = entry := by
      rw [act_allowed identity.bit_has, isNew]
      rfl
    have once : (elementRules identity defaultDMask).actAll (input :: inputs) found =
        (elementRules identity defaultDMask).actAll inputs entry := by
      rw [Rules.actAll_cons, asFound]
    rw [← once]
    exact actAll_again append (.inr (List.cons_ne_nil _ _))
  create_none := by
    intro input other same creates
    have sameId : other.id = input.id := same.symm
    simp only [elementRules, newEntry] at creates ⊢
    split at creates
    · split at creates
      · cases creates
      · rename_i allowed unstorable
        rw [if_pos allowed]
        exact dif_neg (sameId ▸ unstorable)
    · rename_i refused
      exact if_neg refused

end

/-! ## The packet -/

section

variable {p : Platform} {identity : Identity}

/-- A packet that raised the `Lsv` still passes the version checks, and raises it no further. -/
theorem readVersions_again {store after : PermissionStore} {packet : XmlNode} {versions : PacketVersions}
    (reads : store.readVersions packet = .ok versions) (lsv : after.lsv = versions.lsv) :
    after.readVersions packet = .ok versions := by
  rw [readVersions] at reads ⊢
  split at reads
  · contradiction
  · rename_i versionNode found
    split at reads
    · contradiction
    · rename_i small
      split at reads
      · contradiction
      · rename_i current
        split at reads
        · contradiction
        · rename_i lsvNode foundLsv
          split at reads
          · contradiction
          · rename_i smallLsv
            split at reads
            · contradiction
            · rename_i ordered
              cases reads
              have raised : ¬ versionNode.value.decimalToUintn < after.lsv := by
                rw [lsv]
                exact Nat.not_lt.mpr (versionNode.lsv_le lsvNode current ordered)
              have same : max after.lsv lsvNode.value.decimalToUintn = max store.lsv lsvNode.value.decimalToUintn := by
                rw [lsv, Nat.max_assoc, Nat.max_self]
              simp [small, smallLsv, ordered, raised, same]

/-- Defaults that the list has set, or that its signer may not set, stay. -/
theorem applyDefaults_again {before after start : PermissionStore} {list : XmlNode}
    (applies : before.applyDefaults identity list = .ok start) (pMask : after.defaultPMask = start.defaultPMask)
    (dMask : after.defaultDMask = start.defaultDMask) : after.applyDefaults identity list = .ok after := by
  obtain ⟨version, lsv, modified, createdOn, savedOn, afterPMask, afterDMask, entries, version_lt, lsv_le⟩ := after
  cases pMask
  cases dMask
  rw [applyDefaults] at applies ⊢
  split at applies
  · rfl
  · contradiction
  · rename_i given masks
    split at applies
    · cases applies
      cases given <;> simp
    · rename_i refused
      cases applies
      simp [refused]

/-- The element loop of an applied packet, as requests to the entry list. -/
theorem elements_of_applies {v1Mode : Bool} {xml : List Byte} {store : PermissionStore}
    {applied : AppliedPermissions} (applies : store.applyPermissions p v1Mode identity xml = .ok applied) :
    ∃ packet versions list append start inputs,
      readPacketNode p xml = .ok packet ∧ store.readVersions packet = .ok versions ∧
      readListNode v1Mode packet = .ok (list, append) ∧
      ((store.markForReplacement identity append).setVersions versions).applyDefaults identity list = .ok start ∧
      Reads p list.children inputs ∧ (∀ input ∈ inputs, Fits identity start.defaultDMask input) ∧
      applied.store = { start with
        entries := ((elementRules identity start.defaultDMask).upsertAll inputs
          (store.entries.map (markEntry identity append))).filter kept } := by
  obtain ⟨packet, versions, list, append, start, final, results, readsPacket, readsVersions, readsList, defaults, loops,
    _, result⟩ := applyPermissions_eq_ok applies
  rw [applyElements_eq] at loops
  cases taken : elementTurns p identity list.children start with
  | error failure => simp [taken, Except.map] at loops
  | ok turns =>
    obtain ⟨inputs, reads, fits⟩ := reads_of_elementTurns taken
    obtain ⟨others, again, after⟩ := elementTurns_of_reads reads fits
    rw [taken] at again
    cases again
    rw [taken] at loops
    cases loops
    refine ⟨packet, versions, list, append, start, inputs, readsPacket, readsVersions, readsList, defaults, reads, fits, ?_⟩
    have entries : start.entries = store.entries.map (markEntry identity append) := by
      rw [applyDefaults_entries defaults, ← entries_markForReplacement]
      rfl
    rw [result, after, entries]
    rfl

/-- A packet that was applied gets through all its elements a second time, by the same signer, and leaves the
store exactly as it is. It is refused only if the result document of the second time cannot be made or is too
large. -/
theorem applyPermissions_again {v1Mode : Bool} {xml : List Byte} {store : PermissionStore} (unmarked : store.Unmarked)
    {applied : AppliedPermissions} (applies : store.applyPermissions p v1Mode identity xml = .ok applied) :
    ∃ run, applied.store.packetRun p v1Mode identity xml = .ok run ∧
      applied.store.applyPermissions p v1Mode identity xml =
        (checkResultXml p run.reports).map fun size => ⟨applied.store, size⟩ := by
  obtain ⟨packet, versions, list, append, start, inputs, readsPacket, readsVersions, readsList, defaults, reads, fits,
    result⟩ := elements_of_applies applies
  obtain ⟨final, size⟩ := applied
  subst result
  generalize entriesAre : ((elementRules identity start.defaultDMask).upsertAll inputs
    (store.entries.map (markEntry identity append))).filter kept = entries
  -- the entries come out the same
  have settled : (elementRules identity start.defaultDMask).upsertAll inputs
      (entries.map (markEntry identity append)) = entries := by
    rw [← entriesAre]
    exact (elementRules_settles identity start.defaultDMask append).upsertAll inputs unmarked
  have allKept : entries.filter kept = entries := by
    rw [← entriesAre, List.filter_filter, List.filter_congr]
    simp
  -- so do the versions and the defaults
  obtain ⟨version, lsv⟩ := applyDefaults_sameVersions defaults
  have versionsAgain : ({ start with entries := entries } : PermissionStore).readVersions packet = .ok versions :=
    readVersions_again readsVersions lsv
  generalize again : (({ start with entries := entries } : PermissionStore).markForReplacement identity append).setVersions
    versions = marked
  have sameDMask : marked.defaultDMask = start.defaultDMask := by
    rw [← again]
    exact markForReplacement_defaultDMask _ identity append
  have samePMask : marked.defaultPMask = start.defaultPMask := by
    rw [← again]
    exact markForReplacement_defaultPMask _ identity append
  have markedEntries : marked.entries = entries.map (markEntry identity append) := by
    rw [← again]
    exact entries_markForReplacement _ identity append
  have defaultsAgain : marked.applyDefaults identity list = .ok marked :=
    applyDefaults_again defaults samePMask sameDMask
  obtain ⟨turns, taken, after⟩ := elementTurns_of_reads reads (sameDMask.symm ▸ fits)
  have runs : ({ start with entries := entries } : PermissionStore).packetRun p v1Mode identity xml =
      .ok ⟨marked, turns⟩ := by
    simp [packetRun, readsPacket, versionsAgain, readsList, again, defaultsAgain, taken, bind, Except.bind]
  have same : (storeAfter marked turns).deleteMarkedPermissionEntries = { start with entries := entries } := by
    rw [after, show (elementRules identity marked.defaultDMask).upsertAll inputs marked.entries = entries by
      rw [sameDMask, markedEntries, settled], deleteMarked_kept allKept, ← again]
    cases append <;> simp [markForReplacement, markPermissionEntriesForDeletion, setVersions, version, lsv]
  refine ⟨⟨marked, turns⟩, runs, ?_⟩
  rw [applyPermissions_eq, runs]
  simp only [bind, Except.bind, PacketRun.final, same]
  cases checkResultXml p (PacketRun.reports ⟨marked, turns⟩) <;> rfl

end

/-- The Owner's packet for one delegated setting, twice. -/
theorem applyPermissions_again_keepSetting1 :
    ∃ store applied run, bootedStore (packetPlatform [delegatedSetting1] keepSetting1) = some store ∧
      store.applyPermissions (packetPlatform [delegatedSetting1] keepSetting1) false .signerOwner [0x3C] = .ok applied ∧
      applied.store.packetRun (packetPlatform [delegatedSetting1] keepSetting1) false .signerOwner [0x3C] = .ok run ∧
      applied.store.applyPermissions (packetPlatform [delegatedSetting1] keepSetting1) false .signerOwner [0x3C] =
        (checkResultXml (packetPlatform [delegatedSetting1] keepSetting1) run.reports).map
          fun size => ⟨applied.store, size⟩ := by
  obtain ⟨store, applied, booted, applies, _⟩ := keepSetting1_applies
  obtain ⟨run, runs, again⟩ := applyPermissions_again (bootedStore_unmarked booted) applies
  exact ⟨store, applied, run, booted, applies, runs, again⟩

/-! ## A second result document that is too large -/

/-- The size of a result document without white space between its elements: the frame with its time stamp and
the terminator, and for each result its element, the id and the status, `0x0` or `0x800000000000000F`. -/
def resultDocumentSize (results : List (SettingId × EfiStatus)) : Nat :=
  171 + (results.map fun result => 63 + result.1.chars.length + if result.2 = .success then 3 else 18).sum

def characterElement (chars : List Byte) (dMask : String) : XmlNode :=
  .node false (.ofString "Permission") (.ofString "") []
    [.leaf idElementName (.ofMemory chars), .leaf maskElementName (.ofString "128"),
      .leaf delegatedMaskElementName (.ofString dMask)]

/-- An Owner's packet that gives 15 new settings away, with 43 more elements whose numeric ids are passed over. -/
def crowdedPacket : XmlNode :=
  permissionsPacket "2" "1" "True"
    ((List.range 15).map (fun setting => characterElement [0x41, 0x2E, BitVec.ofNat 8 (0x41 + setting)] "0") ++
      List.replicate 43 (characterElement (List.replicate 96 0x31) "0"))

def crowdedPlatform : Platform :=
  { packetPlatform [] crowdedPacket with resultXmlSize := fun results => .ok (resultDocumentSize results) }

/-- The first result document has 8172 bytes. In the second the 15 settings are denied, their statuses are
longer, and the packet is refused. -/
theorem crowdedPacket_refused_again : ((bootedStore crowdedPlatform).bind fun store =>
      (store.applyPermissions crowdedPlatform false .signerOwner [0x3C]).toOption.map fun applied =>
        (applied.resultXmlSize, (applied.store.applyPermissions crowdedPlatform false .signerOwner [0x3C]).toOption.isSome)) =
      some (8172, false) := by
  decide +kernel

end PermissionStore

end Dfci
