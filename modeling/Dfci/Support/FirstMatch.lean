import Mathlib.Data.List.Basic
import Mathlib.Tactic.Common

/-! # Changing the first matching element of a list

`List.find?` and `List.eraseP` look up and remove the first element that satisfies a predicate;
`modifyFirst` changes it in place. -/

namespace FirstMatch

variable {α β : Type*}

def modifyFirst (matching : α → Bool) (change : α → α) : List α → List α
  | [] => []
  | head :: tail => if matching head then change head :: tail else head :: modifyFirst matching change tail

theorem modifyFirst_unchanged (matching : α → Bool) (elements : List α) :
    modifyFirst matching (fun element => element) elements = elements := by
  induction elements with
  | nil => rfl
  | cons head tail ih => simp [modifyFirst, ih]

/-- Projecting to what the predicate and the change are about. -/
theorem map_modifyFirst_comm (matching : α → Bool) (change : α → α) (matching' : β → Bool) (change' : β → β)
    (project : α → β) (elements : List α) (sameMatch : ∀ element, matching' (project element) = matching element)
    (sameChange : ∀ element, elements.find? matching = some element →
      project (change element) = change' (project element)) :
    (modifyFirst matching change elements).map project = modifyFirst matching' change' (elements.map project) := by
  induction elements with
  | nil => rfl
  | cons head tail ih =>
    simp only [modifyFirst, List.map_cons, sameMatch]
    by_cases headMatches : matching head = true
    · simp [headMatches, sameChange head (by simp [headMatches])]
    · have rest := ih fun element found => sameChange element (by simpa [headMatches] using found)
      simp [headMatches, rest]

section

variable {matching : α → Bool}

/-- Only what the change does to the first match counts. -/
theorem modifyFirst_congr {change other : α → α} {elements : List α}
    (same : ∀ element, elements.find? matching = some element → change element = other element) :
    modifyFirst matching change elements = modifyFirst matching other elements := by
  have mapped := map_modifyFirst_comm matching change matching other id elements (fun _ => rfl) same
  simpa using mapped

theorem map_modifyFirst {change : α → α} (key : α → β) (keeps : ∀ element, key (change element) = key element)
    (elements : List α) : (modifyFirst matching change elements).map key = elements.map key := by
  induction elements with
  | nil => rfl
  | cons head tail ih =>
    rw [modifyFirst]
    split
    · simp [keeps]
    · simp [ih]

/-- Where no two elements match, the first match is the only one. -/
theorem modifyFirst_eq_map (change : α → α) {elements : List α}
    (single : elements.Pairwise fun first second => ¬ (matching first = true ∧ matching second = true)) :
    modifyFirst matching change elements =
      elements.map fun element => if matching element then change element else element := by
  induction elements with
  | nil => rfl
  | cons head tail ih =>
    obtain ⟨apart, single⟩ := List.pairwise_cons.mp single
    by_cases headMatches : matching head = true
    · have unmatched : ∀ element ∈ tail, matching element = false :=
        fun element mem => Bool.eq_false_iff.mpr fun matches' => apart element mem ⟨headMatches, matches'⟩
      have kept : (tail.map fun element => if matching element then change element else element) = tail :=
        (List.map_congr_left fun element mem => by simp [unmatched element mem]).trans (List.map_id' tail)
      simp [modifyFirst, headMatches, kept]
    · simp [modifyFirst, headMatches, ih single]

theorem mem_modifyFirst {change : α → α} {elements : List α} {element : α}
    (mem : element ∈ modifyFirst matching change elements) : element ∈ elements ∨
      ∃ original, elements.find? matching = some original ∧ element = change original := by
  induction elements with
  | nil => simp [modifyFirst] at mem
  | cons head tail ih =>
    rw [modifyFirst] at mem
    split at mem
    · rename_i headMatches
      rcases List.mem_cons.mp mem with rfl | inTail
      · exact .inr ⟨head, by simp [headMatches], rfl⟩
      · exact .inl (List.mem_cons_of_mem _ inTail)
    · rename_i headDiffers
      rcases List.mem_cons.mp mem with rfl | inTail
      · exact .inl List.mem_cons_self
      · rcases ih inTail with old | ⟨original, found, changed⟩
        · exact .inl (List.mem_cons_of_mem _ old)
        · exact .inr ⟨original, by simp [headDiffers, found], changed⟩

/-- Everything but the first match stays. -/
theorem mem_modifyFirst_of_ne_first {change : α → α} {elements : List α} {element : α} (mem : element ∈ elements)
    (other : elements.find? matching ≠ some element) : element ∈ modifyFirst matching change elements := by
  induction elements with
  | nil => cases mem
  | cons head tail ih =>
    rw [modifyFirst]
    by_cases headMatches : matching head = true
    · rcases List.mem_cons.mp mem with rfl | inTail
      · simp [headMatches] at other
      · simp [headMatches, inTail]
    · rcases List.mem_cons.mp mem with rfl | inTail
      · simp [headMatches]
      · have stays := ih inTail (by simpa [headMatches] using other)
        simp [headMatches, stays]

/-- The first match, once it is changed, is still the first. -/
theorem find?_modifyFirst {change : α → α} (stays : ∀ element, matching (change element) = matching element)
    (elements : List α) :
    (modifyFirst matching change elements).find? matching = (elements.find? matching).map change := by
  induction elements with
  | nil => rfl
  | cons head tail ih =>
    rw [modifyFirst]
    by_cases headMatches : matching head = true
    · simp [headMatches, stays]
    · simp [headMatches, ih]

end

section

variable {matching other : α → Bool} (apart : ∀ element, matching element = true → other element = false)
include apart

/-- Changing the first match of one predicate does not move the first match of another. -/
theorem find?_modifyFirst_of_apart {change : α → α} (stays : ∀ element, other (change element) = other element)
    (elements : List α) : (modifyFirst matching change elements).find? other = elements.find? other := by
  induction elements with
  | nil => rfl
  | cons head tail ih =>
    rw [modifyFirst]
    by_cases headMatches : matching head = true
    · simp [headMatches, stays, apart head headMatches]
    · simp [headMatches, List.find?_cons, ih]

theorem find?_eraseP_of_apart (elements : List α) : (elements.eraseP matching).find? other = elements.find? other := by
  induction elements with
  | nil => rfl
  | cons head tail ih =>
    by_cases headMatches : matching head = true
    · simp [headMatches, apart head headMatches]
    · simp [headMatches, List.find?_cons, ih]

end

/-- A filter that lets the first match through leaves it the first. -/
theorem find?_filter_of_find? {matching keep : α → Bool} {elements : List α} {first : α}
    (found : elements.find? matching = some first) (kept : keep first = true) :
    (elements.filter keep).find? matching = some first := by
  induction elements with
  | nil => cases found
  | cons head tail ih =>
    rw [List.find?_cons] at found
    by_cases headMatches : matching head = true
    · simp only [headMatches, Option.some.injEq] at found
      simp [found ▸ headMatches, found, kept]
    · simp only [headMatches] at found
      have rest := ih found
      rw [List.filter_cons]
      split
      · simp [headMatches, rest]
      · exact rest

section

variable {wide narrow : α → Bool} {elements : List α} {first : α} (found : elements.find? wide = some first)
  (meets : narrow first = true) (stronger : ∀ element, narrow element = true → wide element = true)
include first found meets stronger

/-- The first match of a condition, where it meets a stronger one, is the first match of that one. -/
theorem find?_of_imp : elements.find? narrow = some first := by
  obtain ⟨_, before, after, rfl, unmatched⟩ := List.find?_eq_some_iff_append.mp found
  refine List.find?_eq_some_iff_append.mpr ⟨meets, before, after, rfl, fun element mem => ?_⟩
  have not : wide element = false := by simpa using unmatched element mem
  cases isNarrow : narrow element with
  | false => rfl
  | true => rw [stronger element isNarrow] at not; cases not

theorem modifyFirst_of_imp (change : α → α) :
    modifyFirst narrow change elements = modifyFirst wide change elements := by
  induction elements with
  | nil => rfl
  | cons head tail ih =>
    rw [List.find?_cons] at found
    cases headMatches : wide head with
    | true =>
      simp only [headMatches] at found
      cases found
      simp [modifyFirst, headMatches, meets]
    | false =>
      simp only [headMatches] at found
      have notNarrow : narrow head = false := by
        cases isNarrow : narrow head with
        | false => rfl
        | true => rw [stronger head isNarrow] at headMatches; cases headMatches
      simp [modifyFirst, headMatches, notNarrow, ih found]

end

end FirstMatch
