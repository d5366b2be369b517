import Mathlib.Data.List.Basic
import Mathlib.Data.List.Perm.Basic
import Mathlib.Tactic.Common

/-! # The common value of several readings

A loop reads several places through one cell and keeps the value that they have in common. One value marks that the
readings differ. The loop starts from it too, so it cannot tell a first reading from one that follows a marked one. -/

namespace CommonValue

/-- One reading: the error it ends in, and what it writes to the cell, if anything. -/
structure Reading (ε α : Type*) where
  error : Option ε
  written : Option α

section

variable {ε α : Type*}

/-- What a caller sees of a result: the error, or the value. -/
def observed (result : Option ε × α) : Except ε α :=
  match result.1 with
  | some error => .error error
  | none => .ok result.2

theorem observed_eq_ok {result : Option ε × α} {value : α} :
    observed result = .ok value ↔ result.1 = none ∧ result.2 = value := by
  rw [observed]
  cases result.1 <;> simp

theorem observed_eq_error {result : Option ε × α} {error : ε} :
    observed result = .error error ↔ result.1 = some error := by
  rw [observed]
  cases result.1 <;> simp

variable (marker : α)

/-- What the result should say: the value that all readings have, or the marker. -/
structure Faithful (readings : List (Reading ε α)) (result : Option ε × α) : Prop where
  succeeds : result.1 = none ↔ ∀ reading ∈ readings, reading.error = none
  common : (∀ reading ∈ readings, reading.error = none) → ∀ value : Option α,
    (∀ reading ∈ readings, reading.written = value) → value = some result.2
  differing : (∀ reading ∈ readings, reading.error = none) →
    (¬ ∃ value : Option α, ∀ reading ∈ readings, reading.written = value) → result.2 = marker

/-- The readings for which the loop is reliable. -/
inductive Settled (readings : List (Reading ε α)) : Prop where
  | same (value : α) (all : ∀ reading ∈ readings, reading.error = none ∧ reading.written = some value)
  | different (all : ∀ reading ∈ readings, reading.error = none) (first second : α) (apart : first ≠ second)
      (unmarked : first ≠ marker ∧ second ≠ marker) (hasFirst : ∃ reading ∈ readings, reading.written = some first)
      (hasSecond : ∃ reading ∈ readings, reading.written = some second)
  | marked (all : ∀ reading ∈ readings, reading.error = none)
      (only : ∀ reading ∈ readings, reading.written = some marker ∨ reading.written = none)
      (has : ∃ reading ∈ readings, reading.written = some marker)
  | failed (error : ε) (value : Option α)
      (all : ∀ reading ∈ readings, reading.error = some error ∨ reading.error = none ∧ reading.written = value)
      (has : ∃ reading ∈ readings, reading.error = some error)

variable [DecidableEq α]

/-- The loop, with the last error, the common value and the cell. It ends at the first difference. -/
def scan : List (Reading ε α) → Option ε → α → α → Option ε × α
  | [], status, common, _ => (status, common)
  | reading :: readings, status, common, cell =>
    match reading.error with
    | some error => scan readings (some error) common (reading.written.getD cell)
    | none =>
      if common = marker then
        scan readings status (reading.written.getD cell) (reading.written.getD cell)
      else if common ≠ reading.written.getD cell then
        (status, marker)
      else
        scan readings status common (reading.written.getD cell)

/-- The result is faithful and does not depend on the order of the readings, or on what the cell held before. -/
structure Reliable (readings : List (Reading ε α)) : Prop where
  faithful : ∀ cell, Faithful marker readings (scan marker readings none marker cell)
  orderless : ∀ other, other.Perm readings → ∀ cell otherCell,
    observed (scan marker other none marker otherCell) = observed (scan marker readings none marker cell)

variable {marker} {readings : List (Reading ε α)}

/-! ## Runs of the loop -/

theorem scan_cons_error {reading : Reading ε α} {error : ε} (fails : reading.error = some error)
    (readings : List (Reading ε α)) (status : Option ε) (common cell : α) :
    scan marker (reading :: readings) status common cell =
      scan marker readings (some error) common (reading.written.getD cell) := by
  rw [scan, fails]

theorem scan_cons_ok {reading : Reading ε α} (reads : reading.error = none) (readings : List (Reading ε α))
    (status : Option ε) (common cell : α) : scan marker (reading :: readings) status common cell =
      if common = marker then scan marker readings status (reading.written.getD cell) (reading.written.getD cell)
      else if common ≠ reading.written.getD cell then (status, marker)
      else scan marker readings status common (reading.written.getD cell) := by
  rw [scan, reads]

/-- Readings that succeed leave the status alone, whether or not they end the loop. -/
theorem scan_status (all : ∀ reading ∈ readings, reading.error = none) (status : Option ε) (common cell : α) :
    (scan marker readings status common cell).1 = status := by
  induction readings generalizing common cell with
  | nil => rfl
  | cons reading readings ih =>
    obtain ⟨reads, all⟩ := List.forall_mem_cons.mp all
    rw [scan_cons_ok reads]
    split
    · exact ih all _ _
    · split
      · rfl
      · exact ih all _ _

/-- Readings that fail never end the loop. -/
theorem scan_errors (fail : ∀ reading ∈ readings, reading.error ≠ none) (rest : List (Reading ε α)) (status : Option ε)
    (common cell : α) :
    ∃ after afterCell, scan marker (readings ++ rest) status common cell = scan marker rest after common afterCell := by
  induction readings generalizing status cell with
  | nil => exact ⟨status, cell, rfl⟩
  | cons reading readings ih =>
    obtain ⟨fails, fail⟩ := List.forall_mem_cons.mp fail
    obtain ⟨error, isError⟩ := Option.ne_none_iff_exists'.mp fails
    rw [List.cons_append, scan_cons_error isError]
    exact ih fail _ _

/-- Marked readings are as if nothing was read. -/
theorem scan_marked (all : ∀ reading ∈ readings, reading.error = none ∧ reading.written = some marker)
    (rest : List (Reading ε α)) (status : Option ε) (cell : α) :
    ∃ afterCell, scan marker (readings ++ rest) status marker cell = scan marker rest status marker afterCell := by
  induction readings generalizing cell with
  | nil => exact ⟨cell, rfl⟩
  | cons reading readings ih =>
    obtain ⟨⟨reads, isMarker⟩, all⟩ := List.forall_mem_cons.mp all
    rw [List.cons_append, scan_cons_ok reads, if_pos rfl, isMarker]
    exact ih all _

theorem scan_same {value : α} (all : ∀ reading ∈ readings, reading.error = none ∧ reading.written = some value)
    (nonempty : readings ≠ []) (rest : List (Reading ε α)) (status : Option ε) {common : α}
    (sofar : common = marker ∨ common = value) (cell : α) :
    scan marker (readings ++ rest) status common cell = scan marker rest status value value := by
  induction readings generalizing common cell with
  | nil => exact absurd rfl nonempty
  | cons reading readings ih =>
    obtain ⟨⟨reads, isValue⟩, all⟩ := List.forall_mem_cons.mp all
    have step : scan marker (reading :: (readings ++ rest)) status common cell =
        scan marker (readings ++ rest) status value value := by
      rw [scan_cons_ok reads, isValue, Option.getD_some]
      by_cases unset : common = marker
      · rw [if_pos unset]
      · rw [if_neg unset, if_neg (not_not_intro (sofar.resolve_left unset)), sofar.resolve_left unset]
    rw [List.cons_append, step]
    cases readings with
    | nil => rfl
    | cons next readings => exact ih all (List.cons_ne_nil _ _) (.inr rfl) _

/-- Readings that write nothing repeat what the cell holds. -/
theorem scan_silent (all : ∀ reading ∈ readings, reading.error = none ∧ reading.written = none) (status : Option ε)
    (cell : α) : scan marker readings status cell cell = (status, cell) := by
  induction readings with
  | nil => rfl
  | cons reading readings ih =>
    obtain ⟨⟨reads, silent⟩, all⟩ := List.forall_mem_cons.mp all
    rw [scan_cons_ok reads, silent, Option.getD_none, if_neg (not_not_intro rfl), ite_self]
    exact ih all

/-- A value that is not the common one ends the loop, or something ended it before. -/
theorem scan_ends {common value : α} (all : ∀ reading ∈ readings, reading.error = none) (set : common ≠ marker)
    (differs : value ≠ common) (has : ∃ reading ∈ readings, reading.written = some value) (status : Option ε) (cell : α) :
    scan marker readings status common cell = (status, marker) := by
  induction readings generalizing cell with
  | nil =>
    obtain ⟨_, mem, _⟩ := has
    cases mem
  | cons reading readings ih =>
    obtain ⟨reads, all⟩ := List.forall_mem_cons.mp all
    rw [scan_cons_ok reads, if_neg set]
    split
    · rfl
    · rename_i unchanged
      -- this reading repeats the common value, so the other one is still to come
      obtain ⟨later, mem, isValue⟩ := has
      rcases List.mem_cons.mp mem with rfl | mem
      · rw [isValue, Option.getD_some, not_not] at unchanged
        exact absurd unchanged.symm differs
      · exact ih all ⟨later, mem, isValue⟩ _

/-! ## The results of settled readings -/

theorem scan_all_same {value : α} (all : ∀ reading ∈ readings, reading.error = none ∧ reading.written = some value)
    (nonempty : readings ≠ []) (cell : α) : scan marker readings none marker cell = (none, value) := by
  rw [← List.append_nil readings, scan_same all nonempty [] none (.inl rfl) cell, scan]

theorem scan_different {first second : α} (all : ∀ reading ∈ readings, reading.error = none) (apart : first ≠ second)
    (unmarked : first ≠ marker ∧ second ≠ marker) (hasFirst : ∃ reading ∈ readings, reading.written = some first)
    (hasSecond : ∃ reading ∈ readings, reading.written = some second) (status : Option ε) (cell : α) :
    scan marker readings status marker cell = (status, marker) := by
  induction readings generalizing cell with
  | nil =>
    obtain ⟨_, mem, _⟩ := hasFirst
    cases mem
  | cons reading readings ih =>
    obtain ⟨reads, all⟩ := List.forall_mem_cons.mp all
    -- one of the two values differs from what is read here, and is still to come if this is the other
    have later : ∀ value, (∃ other ∈ reading :: readings, other.written = some value) →
        reading.written ≠ some value → ∃ other ∈ readings, other.written = some value := by
      intro value has elsewhere
      obtain ⟨other, mem, isValue⟩ := has
      rcases List.mem_cons.mp mem with rfl | mem
      · exact absurd isValue elsewhere
      · exact ⟨other, mem, isValue⟩
    rw [scan_cons_ok reads, if_pos rfl]
    generalize cellIs : reading.written.getD cell = next
    by_cases atMarker : next = marker
    · have neither : ∀ value, value ≠ marker → reading.written ≠ some value := by
        intro value notMarker isValue
        rw [isValue, Option.getD_some] at cellIs
        exact notMarker (cellIs.trans atMarker)
      rw [atMarker]
      exact ih all (later first hasFirst (neither first unmarked.1))
        (later second hasSecond (neither second unmarked.2)) _
    · by_cases isFirst : next = first
      · have elsewhere : reading.written ≠ some second := by
          intro isSecond
          rw [isSecond, Option.getD_some] at cellIs
          exact apart (isFirst.symm.trans cellIs.symm)
        exact scan_ends all atMarker (fun same => apart (isFirst.symm.trans same.symm)) (later second hasSecond elsewhere) _ _
      · have elsewhere : reading.written ≠ some first := by
          intro isValue
          rw [isValue, Option.getD_some] at cellIs
          exact isFirst cellIs.symm
        exact scan_ends all atMarker (fun same => isFirst same.symm) (later first hasFirst elsewhere) _ _

section

variable (all : ∀ reading ∈ readings, reading.error = none)
  (only : ∀ reading ∈ readings, reading.written = some marker ∨ reading.written = none)
include all only

/-- Once the cell holds the marker, marked and silent readings keep it there. -/
theorem scan_stays_marked (status : Option ε) : scan marker readings status marker marker = (status, marker) := by
  induction readings with
  | nil => rfl
  | cons reading readings ih =>
    obtain ⟨reads, all⟩ := List.forall_mem_cons.mp all
    obtain ⟨here, only⟩ := List.forall_mem_cons.mp only
    have kept : reading.written.getD marker = marker := by
      rcases here with isMarker | silent
      · rw [isMarker, Option.getD_some]
      · rw [silent, Option.getD_none]
    rw [scan_cons_ok reads, if_pos rfl, kept]
    exact ih all only

theorem scan_marked_silent (has : ∃ reading ∈ readings, reading.written = some marker) (status : Option ε) (cell : α) :
    scan marker readings status marker cell = (status, marker) := by
  obtain ⟨found, mem, isMarker⟩ := has
  cases readings with
  | nil => cases mem
  | cons reading readings =>
    obtain ⟨reads, all⟩ := List.forall_mem_cons.mp all
    obtain ⟨here, only⟩ := List.forall_mem_cons.mp only
    rw [scan_cons_ok reads, if_pos rfl]
    rcases here with isMarker | silent
    · rw [isMarker]
      exact scan_stays_marked all only status
    · rw [silent, Option.getD_none]
      by_cases cellMarked : cell = marker
      · rw [cellMarked]
        exact scan_stays_marked all only status
      · rcases List.mem_cons.mp mem with rfl | later
        · rw [silent] at isMarker
          cases isMarker
        · exact scan_ends all cellMarked (Ne.symm cellMarked) ⟨found, later, isMarker⟩ _ _

end

/-- As long as nothing failed, equal readings do not end the loop. -/
theorem scan_failed {error : ε} {value : Option α}
    (all : ∀ reading ∈ readings, reading.error = some error ∨ reading.error = none ∧ reading.written = value)
    {status : Option ε} {common cell : α} (sofar : status = some error ∨
      (∃ reading ∈ readings, reading.error = some error) ∧ (common = marker ∨ common = value.getD cell)) :
    (scan marker readings status common cell).1 = some error := by
  induction readings generalizing status common cell with
  | nil =>
    rcases sofar with failed | ⟨⟨_, mem, _⟩, _⟩
    · exact failed
    · cases mem
  | cons reading readings ih =>
    obtain ⟨here, all⟩ := List.forall_mem_cons.mp all
    rcases here with fails | ⟨reads, isValue⟩
    · rw [scan_cons_error fails]
      exact ih all (.inl rfl)
    · rw [scan_cons_ok reads, isValue]
      rcases sofar with failed | ⟨has, unended⟩
      · split
        · exact ih all (.inl failed)
        · split
          · exact failed
          · exact ih all (.inl failed)
      · have later : ∃ other ∈ readings, other.error = some error := by
          obtain ⟨other, mem, fails⟩ := has
          rcases List.mem_cons.mp mem with rfl | mem
          · rw [reads] at fails
            cases fails
          · exact ⟨other, mem, fails⟩
        have again : value.getD (value.getD cell) = value.getD cell := by cases value <;> rfl
        by_cases unset : common = marker
        · rw [if_pos unset]
          exact ih all (.inr ⟨later, .inr again.symm⟩)
        · rw [if_neg unset, if_neg (not_not_intro (unended.resolve_left unset))]
          exact ih all (.inr ⟨later, .inr ((unended.resolve_left unset).trans again.symm)⟩)

/-! ## Reliable readings -/

/-- What a caller sees of settled readings, in whatever order. -/
theorem Settled.orderless (nonempty : readings ≠ []) (settled : Settled marker readings) :
    ∃ outcome, ∀ other, other.Perm readings → ∀ cell, observed (scan marker other none marker cell) = outcome := by
  -- each case says something of the members only
  cases settled with
  | same value all =>
    refine ⟨.ok value, fun other reordered cell => ?_⟩
    have nonempty : other ≠ [] := fun empty => nonempty (List.nil_perm.mp (empty ▸ reordered))
    simp only [← reordered.mem_iff] at all
    rw [scan_all_same all nonempty, observed]
  | different all first second apart unmarked hasFirst hasSecond =>
    refine ⟨.ok marker, fun other reordered cell => ?_⟩
    simp only [← reordered.mem_iff] at all hasFirst hasSecond
    rw [scan_different all apart unmarked hasFirst hasSecond, observed]
  | marked all only has =>
    refine ⟨.ok marker, fun other reordered cell => ?_⟩
    simp only [← reordered.mem_iff] at all only has
    rw [scan_marked_silent all only has, observed]
  | failed error value all has =>
    refine ⟨.error error, fun other reordered cell => ?_⟩
    simp only [← reordered.mem_iff] at all has
    rw [observed, scan_failed all (.inr ⟨has, .inl rfl⟩)]

theorem Settled.faithful (nonempty : readings ≠ []) (settled : Settled marker readings) (cell : α) :
    Faithful marker readings (scan marker readings none marker cell) := by
  obtain ⟨reading, mem⟩ := List.exists_mem_of_ne_nil readings nonempty
  cases settled with
  | same value all =>
    rw [scan_all_same all nonempty]
    refine ⟨iff_of_true rfl fun reading mem => (all reading mem).1, fun _ other others => ?_, fun _ differ => ?_⟩
    · exact (others reading mem).symm.trans (all reading mem).2
    · exact absurd ⟨_, fun reading mem => (all reading mem).2⟩ differ
  | different all first second apart unmarked hasFirst hasSecond =>
    rw [scan_different all apart unmarked hasFirst hasSecond]
    refine ⟨iff_of_true rfl all, fun _ other others => ?_, fun _ _ => rfl⟩
    obtain ⟨one, isOne, atFirst⟩ := hasFirst
    obtain ⟨two, isTwo, atSecond⟩ := hasSecond
    have both := (atFirst.symm.trans (others one isOne)).trans ((others two isTwo).symm.trans atSecond)
    exact absurd (Option.some.inj both) apart
  | marked all only has =>
    rw [scan_marked_silent all only has]
    refine ⟨iff_of_true rfl all, fun _ other others => ?_, fun _ _ => rfl⟩
    obtain ⟨one, isOne, isMarker⟩ := has
    exact (others one isOne).symm.trans isMarker
  | failed error value all has =>
    obtain ⟨one, isOne, fails⟩ := has
    have notAll : ¬ ∀ reading ∈ readings, reading.error = none := by
      intro reads
      rw [reads one isOne] at fails
      cases fails
    have status : (scan marker readings none marker cell).1 = some error :=
      scan_failed all (.inr ⟨⟨one, isOne, fails⟩, .inl rfl⟩)
    exact ⟨iff_of_false (by simp [status]) notAll, fun reads => absurd reads notAll, fun reads => absurd reads notAll⟩

/-- Any order of the images is one of the items. -/
theorem perm_map_iff {β γ : Type*} {image : β → γ} {images : List γ} {items : List β} :
    images.Perm (items.map image) ↔ ∃ others : List β, images = others.map image ∧ others.Perm items :=
  Iff.of_eq (congrFun (congrFun (List.eq_map_comp_perm image) images) items).symm

theorem exists_perm_cons {β : Type*} {item : β} {items : List β} (mem : item ∈ items) :
    ∃ rest, (item :: rest).Perm items := by
  obtain ⟨before, after, rfl⟩ := List.append_of_mem mem
  exact ⟨before ++ after, List.perm_middle.symm⟩

section

variable (reliable : Reliable marker readings)
include reliable

theorem Reliable.succeeded {other : List (Reading ε α)} (order : other.Perm readings) {cell : α}
    (success : (scan marker other none marker cell).1 = none) : ∀ reading ∈ readings, reading.error = none := by
  have same := reliable.orderless other order cell cell
  rw [observed_eq_ok.mpr ⟨success, rfl⟩] at same
  exact (reliable.faithful cell).succeeds.mp (observed_eq_ok.mp same.symm).1

/-- Two readings that differ must not come first when another one fails: they would end the loop before it. -/
theorem Reliable.not_early {first second : Reading ε α} (isFirst : first ∈ readings) (isSecond : second ∈ readings)
    (firstReads : first.error = none) (secondReads : second.error = none) (cell : α)
    (set : first.written.getD cell ≠ marker)
    (differs : first.written.getD cell ≠ second.written.getD (first.written.getD cell)) :
    ∀ reading ∈ readings, reading.error = none := by
  have apart : second ≠ first := by
    rintro rfl
    cases written : second.written <;> simp [written] at differs
  obtain ⟨others, order⟩ := exists_perm_cons isFirst
  have later := (List.mem_cons.mp (order.mem_iff.mpr isSecond)).resolve_left apart
  obtain ⟨rest, laterOrder⟩ := exists_perm_cons later
  have success : (scan marker (first :: second :: rest) none marker cell).1 = none := by
    rw [scan_cons_ok firstReads, if_pos rfl, scan_cons_ok secondReads, if_neg set, if_pos differs]
  exact reliable.succeeded ((laterOrder.cons first).trans order) success

/-- With an error among them, the other readings are all the same. -/
theorem Reliable.written_eq (fresh : ∀ first second : α, ∃ third, third ≠ first ∧ third ≠ second)
    (fails : ¬ ∀ reading ∈ readings, reading.error = none) {first second : Reading ε α} (isFirst : first ∈ readings)
    (isSecond : second ∈ readings) (firstReads : first.error = none) (secondReads : second.error = none) :
    first.written = second.written := by
  by_contra differ
  apply fails
  -- a silent reading comes first, with a value in the cell that makes the difference
  cases firstWritten : first.written with
  | none =>
    cases secondWritten : second.written with
    | none => exact absurd (firstWritten.trans secondWritten.symm) differ
    | some value =>
      obtain ⟨cell, unmarked, other⟩ := fresh marker value
      apply reliable.not_early isFirst isSecond firstReads secondReads cell <;>
        simp [firstWritten, secondWritten, unmarked, other]
  | some value =>
    cases secondWritten : second.written with
    | none =>
      obtain ⟨cell, unmarked, other⟩ := fresh marker value
      apply reliable.not_early isSecond isFirst secondReads firstReads cell <;>
        simp [firstWritten, secondWritten, unmarked, other]
    | some otherValue =>
      have apart : value ≠ otherValue := by
        rintro rfl
        exact differ (firstWritten.trans secondWritten.symm)
      by_cases isMarker : value = marker
      · have unmarked : otherValue ≠ marker := fun same => apart (isMarker.trans same.symm)
        apply reliable.not_early isSecond isFirst secondReads firstReads marker <;>
          simp [firstWritten, secondWritten, unmarked, apart.symm]
      · apply reliable.not_early isFirst isSecond firstReads secondReads marker <;>
          simp [firstWritten, secondWritten, isMarker, apart]

/-- Errors are all the same: whichever is read last is the status. -/
theorem Reliable.error_eq {first second : Reading ε α} {firstError secondError : ε} (isFirst : first ∈ readings)
    (isSecond : second ∈ readings) (firstFails : first.error = some firstError)
    (secondFails : second.error = some secondError) (cell : α) : firstError = secondError := by
  -- the errors first, with this one last among them
  have last : ∀ reading ∈ readings, ∀ error, reading.error = some error →
      observed (scan marker readings none marker cell) = .error error := by
    intro reading mem error fails
    obtain ⟨others, order⟩ := exists_perm_cons mem
    let errors := others.filter fun other => other.error.isSome
    let values := others.filter fun other => !other.error.isSome
    have arranged : (errors ++ reading :: values).Perm readings :=
      (List.perm_middle.trans ((List.filter_append_perm _ others).cons reading)).trans order
    have fail : ∀ other ∈ errors, other.error ≠ none := by
      intro other isError
      exact Option.isSome_iff_ne_none.mp (List.mem_filter.mp isError).2
    have all : ∀ other ∈ values, other.error = none := by
      intro other isValue
      simpa using (List.mem_filter.mp isValue).2
    obtain ⟨status, afterCell, result⟩ : ∃ status afterCell, scan marker (errors ++ reading :: values) none marker cell =
        scan marker (reading :: values) status marker afterCell := scan_errors fail ..
    rw [← reliable.orderless _ arranged cell cell, observed_eq_error, result, scan_cons_error fails, scan_status all]
  exact Except.error.inj ((last first isFirst _ firstFails).symm.trans (last second isSecond _ secondFails))

theorem Reliable.failed (fresh : ∀ first second : α, ∃ third, third ≠ first ∧ third ≠ second)
    (fails : ¬ ∀ reading ∈ readings, reading.error = none) : Settled marker readings := by
  obtain ⟨failing, isFailing, notNone⟩ : ∃ reading ∈ readings, reading.error ≠ none := by
    push Not at fails
    exact fails
  obtain ⟨error, isError⟩ := Option.ne_none_iff_exists'.mp notNone
  have sameError : ∀ reading ∈ readings, reading.error ≠ none → reading.error = some error := by
    intro reading mem notNone
    obtain ⟨other, isOther⟩ := Option.ne_none_iff_exists'.mp notNone
    rw [isOther, reliable.error_eq mem isFailing isOther isError marker]
  by_cases reads : ∃ reading ∈ readings, reading.error = none
  · obtain ⟨value, isValue, valueReads⟩ := reads
    refine .failed error value.written (fun reading mem => ?_) ⟨failing, isFailing, isError⟩
    by_cases here : reading.error = none
    · exact .inr ⟨here, reliable.written_eq fresh fails mem isValue here valueReads⟩
    · exact .inl (sameError reading mem here)
  · refine .failed error none (fun reading mem => .inl (sameError reading mem fun here => ?_))
      ⟨failing, isFailing, isError⟩
    exact reads ⟨reading, mem, here⟩

/-- Values that differ, and not by two values besides the marker, are the marker and nothing. -/
theorem Reliable.only_marked (all : ∀ reading ∈ readings, reading.error = none)
    (differ : ¬ ∃ value : Option α, ∀ reading ∈ readings, reading.written = value)
    (single : ∀ first second, first ≠ marker → second ≠ marker → (∃ reading ∈ readings, reading.written = some first) →
      (∃ reading ∈ readings, reading.written = some second) → first = second) :
    ∀ reading ∈ readings, reading.written = some marker ∨ reading.written = none := by
  intro reading mem
  by_contra neither
  obtain ⟨notMarker, notSilent⟩ := not_or.mp neither
  obtain ⟨value, isValue⟩ := Option.ne_none_iff_exists'.mp notSilent
  have unmarked : value ≠ marker := fun same => notMarker (isValue.trans (congrArg some same))
  -- the marker first, then the value, then nothing: the value is what is reported
  let marked := readings.filter fun other => decide (other.written = some marker)
  let rest := readings.filter fun other => !decide (other.written = some marker)
  let valued := rest.filter fun other => decide (other.written = some value)
  let silent := rest.filter fun other => !decide (other.written = some value)
  have arranged : (marked ++ (valued ++ silent)).Perm readings :=
    ((List.filter_append_perm _ rest).append_left marked).trans (List.filter_append_perm _ readings)
  have allMarked : ∀ other ∈ marked, other.error = none ∧ other.written = some marker := by
    intro other isMarked
    obtain ⟨isReading, written⟩ := List.mem_filter.mp isMarked
    exact ⟨all other isReading, of_decide_eq_true written⟩
  have allValued : ∀ other ∈ valued, other.error = none ∧ other.written = some value := by
    intro other isValued
    obtain ⟨isRest, written⟩ := List.mem_filter.mp isValued
    exact ⟨all other (List.mem_of_mem_filter isRest), of_decide_eq_true written⟩
  have allSilent : ∀ other ∈ silent, other.error = none ∧ other.written = none := by
    intro other isSilent
    obtain ⟨isRest, notValue⟩ := List.mem_filter.mp isSilent
    obtain ⟨isReading, notMarker⟩ := List.mem_filter.mp isRest
    refine ⟨all other isReading, ?_⟩
    by_contra written
    obtain ⟨another, isAnother⟩ := Option.ne_none_iff_exists'.mp written
    have anotherUnmarked : another ≠ marker := by
      rintro rfl
      simp [isAnother] at notMarker
    have same := single another value anotherUnmarked unmarked ⟨other, isReading, isAnother⟩ ⟨reading, mem, isValue⟩
    simp [isAnother, same] at notValue
  have present : valued ≠ [] := by
    apply List.ne_nil_of_mem
    exact List.mem_filter.mpr ⟨List.mem_filter.mpr ⟨mem, by simp [isValue, unmarked]⟩, by simp [isValue]⟩
  obtain ⟨cell, result⟩ := scan_marked allMarked (valued ++ silent) none marker
  rw [scan_same allValued present silent none (.inl rfl) cell, scan_silent allSilent] at result
  have same := reliable.orderless _ arranged marker marker
  rw [result, observed_eq_ok.mpr ⟨rfl, rfl⟩] at same
  have reported := (observed_eq_ok.mp same.symm).2
  exact unmarked (reported.symm.trans ((reliable.faithful marker).differing all differ))

end

/-- Over every order and every earlier content of the cell, the loop is right exactly for settled readings. -/
theorem reliable_iff_settled (fresh : ∀ first second : α, ∃ third, third ≠ first ∧ third ≠ second)
    (nonempty : readings ≠ []) : Reliable marker readings ↔ Settled marker readings := by
  constructor
  · intro reliable
    by_cases all : ∀ reading ∈ readings, reading.error = none
    · by_cases same : ∃ value : Option α, ∀ reading ∈ readings, reading.written = value
      · obtain ⟨value, isValue⟩ := same
        have isSome := (reliable.faithful marker).common all value isValue
        exact .same _ fun reading mem => ⟨all reading mem, (isValue reading mem).trans isSome⟩
      · by_cases single : ∀ first second, first ≠ marker → second ≠ marker →
            (∃ reading ∈ readings, reading.written = some first) →
            (∃ reading ∈ readings, reading.written = some second) → first = second
        · have only := reliable.only_marked all same single
          refine .marked all only ?_
          by_contra unmarked
          apply same
          refine ⟨none, fun reading mem => (only reading mem).resolve_left fun isMarker => ?_⟩
          exact unmarked ⟨reading, mem, isMarker⟩
        · push Not at single
          obtain ⟨first, second, firstUnmarked, secondUnmarked, hasFirst, hasSecond, apart⟩ := single
          exact .different all first second apart ⟨firstUnmarked, secondUnmarked⟩ hasFirst hasSecond
    · exact reliable.failed fresh all
  · intro settled
    obtain ⟨outcome, always⟩ := settled.orderless nonempty
    refine ⟨settled.faithful nonempty, fun other order cell otherCell => ?_⟩
    rw [always other order otherCell, always readings (.refl readings) cell]

end

end CommonValue
