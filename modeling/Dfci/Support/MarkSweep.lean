import Dfci.Support.FirstMatch

/-! # Mark, unmark by key, sweep

A keyed list in which some elements are marked. Keys are then unmarked one after another, each key at
its first element only, and the sweep keeps the unmarked elements. -/

namespace MarkSweep

open FirstMatch

variable {α : Type*}

/-- The keys of the unmarked elements. -/
def sweep (marks : List (α × Bool)) : List α :=
  (marks.filter fun mark => !mark.2).map Prod.fst

@[simp] theorem sweep_nil : sweep ([] : List (α × Bool)) = [] := rfl

theorem sweep_cons (mark : α × Bool) (marks : List (α × Bool)) :
    sweep (mark :: marks) = if mark.2 then sweep marks else mark.1 :: sweep marks := by
  cases marked : mark.2 <;> simp [sweep, marked]

theorem sweep_append (marks : List (α × Bool)) (fresh : List α) :
    sweep (marks ++ fresh.map (·, false)) = sweep marks ++ fresh := by
  simp [sweep, List.filter_map, Function.comp_def]

/-- Two lists that split into an old and a new part agree part by part. -/
theorem append_inj_of_disjoint {old first second firstNew secondNew : List α}
    (equal : first ++ firstNew = second ++ secondNew) (firstOld : ∀ key ∈ first, key ∈ old)
    (secondOld : ∀ key ∈ second, key ∈ old) (firstFresh : ∀ key ∈ firstNew, key ∉ old)
    (secondFresh : ∀ key ∈ secondNew, key ∉ old) : first = second ∧ firstNew = secondNew := by
  induction first generalizing second with
  | nil =>
    cases second with
    | nil => exact ⟨rfl, equal⟩
    | cons key keys =>
      have fresh : key ∈ firstNew := by
        rw [List.nil_append] at equal
        simp [equal]
      exact absurd (secondOld key (by simp)) (firstFresh key fresh)
  | cons key keys ih =>
    cases second with
    | nil =>
      have fresh : key ∈ secondNew := by
        rw [List.nil_append] at equal
        simp [← equal]
      exact absurd (firstOld key (by simp)) (secondFresh key fresh)
    | cons other others =>
      obtain ⟨sameKey, rest⟩ := List.cons.inj equal
      obtain ⟨sameKeys, sameNew⟩ := ih rest (fun key mem => firstOld key (by simp [mem]))
        (fun key mem => secondOld key (by simp [mem]))
      exact ⟨by rw [sameKey, sameKeys], sameNew⟩

variable [DecidableEq α]

/-- Unmark the first element of a key. -/
def unmark (marks : List (α × Bool)) (key : α) : List (α × Bool) :=
  modifyFirst (fun mark => mark.1 = key) (fun mark => (mark.1, false)) marks

/-- Unmark the first element of each of the keys. -/
def unmarkAll (keys : List α) (marks : List (α × Bool)) : List (α × Bool) :=
  keys.foldl unmark marks

@[simp] theorem unmarkAll_nil (marks : List (α × Bool)) : unmarkAll [] marks = marks := rfl

@[simp] theorem unmarkAll_cons (key : α) (keys : List α) (marks : List (α × Bool)) :
    unmarkAll (key :: keys) marks = unmarkAll keys (unmark marks key) := rfl

@[simp] theorem unmarkAll_no_marks (keys : List α) : unmarkAll keys ([] : List (α × Bool)) = [] := by
  induction keys with
  | nil => rfl
  | cons key keys ih => exact ih

section

variable (keys : List α) (marks : List (α × Bool))

theorem unmarkAll_keys : (unmarkAll keys marks).map Prod.fst = marks.map Prod.fst := by
  induction keys generalizing marks with
  | nil => rfl
  | cons key keys ih =>
    have first : (unmark marks key).map Prod.fst = marks.map Prod.fst := by
      refine map_modifyFirst Prod.fst ?_ marks
      intro mark
      rfl
    rw [unmarkAll_cons, ih, first]

theorem unmark_append {marks : List (α × Bool)} {key : α} {fresh : List α} :
    unmark (marks ++ fresh.map (·, false)) key = unmark marks key ++ fresh.map (·, false) := by
  induction marks with
  | nil =>
    induction fresh with
    | nil => rfl
    | cons first fresh ih =>
      simp only [unmark, List.nil_append, List.map_cons, modifyFirst] at ih ⊢
      split
      · rfl
      · rw [ih]
  | cons mark marks ih =>
    simp only [unmark, List.cons_append, modifyFirst] at ih ⊢
    split
    · rfl
    · rw [ih, List.cons_append]

theorem unmarkAll_append (fresh : List α) :
    unmarkAll keys (marks ++ fresh.map (·, false)) = unmarkAll keys marks ++ fresh.map (·, false) := by
  induction keys generalizing marks with
  | nil => rfl
  | cons key keys ih => rw [unmarkAll_cons, unmarkAll_cons, unmark_append, ih]

/-- The head keeps its mark unless its key is unmarked, and takes that key away from the rest. -/
theorem unmarkAll_cons_mark (key : α) (marked : Bool) (marks : List (α × Bool)) :
    unmarkAll keys ((key, marked) :: marks) =
      (key, marked && !decide (key ∈ keys)) :: unmarkAll (keys.filter fun other => !decide (other = key)) marks := by
  induction keys generalizing marked marks with
  | nil => simp
  | cons first keys ih =>
    by_cases same : first = key
    · subst same
      simp [unmark, modifyFirst, ih]
    · have other : ¬ key = first := fun equal => same equal.symm
      simp [unmark, modifyFirst, ih, same, other]

/-- What the sweep should keep: everything that was not marked or whose key was unmarked. -/
def expected (keys : List α) (marks : List (α × Bool)) : List α :=
  (marks.filter fun mark => !(mark.2 && !decide (mark.1 ∈ keys))).map Prod.fst

theorem expected_cons (mark : α × Bool) (marks : List (α × Bool)) : expected keys (mark :: marks) =
      if mark.2 && !decide (mark.1 ∈ keys) then expected keys marks else mark.1 :: expected keys marks := by
  simp only [expected, List.filter_cons]
  cases mark.2 && !decide (mark.1 ∈ keys) <;> simp

/-- Unmarking only the first element of each key keeps at most what it should. -/
theorem sweep_unmarkAll_sublist {all : List α} (keys : List α) (subset : ∀ key ∈ keys, key ∈ all)
    (marks : List (α × Bool)) : (sweep (unmarkAll keys marks)).Sublist (expected all marks) := by
  induction marks generalizing keys with
  | nil => simp
  | cons mark marks ih =>
    obtain ⟨key, marked⟩ := mark
    have rest := ih (keys.filter fun other => !decide (other = key))
      (fun other mem => subset other (List.mem_of_mem_filter mem))
    rw [unmarkAll_cons_mark, sweep_cons, expected_cons]
    by_cases inKeys : key ∈ keys
    · simp [inKeys, subset key inKeys, rest]
    · by_cases inAll : key ∈ all <;> cases marked <;> simp [inKeys, inAll, rest]

theorem sweep_unmarkAll_eq_iff {all : List α} (keys : List α) (subset : ∀ key ∈ keys, key ∈ all)
    (marks : List (α × Bool)) : sweep (unmarkAll keys marks) = expected all marks ↔
      (∀ mark ∈ marks, mark.1 ∈ all → mark.1 ∉ keys → mark.2 = false) ∧
        marks.Pairwise (fun first second => first.1 = second.1 → first.1 ∈ all → second.2 = false) := by
  induction marks generalizing keys with
  | nil => simp [expected]
  | cons mark marks ih =>
    obtain ⟨key, marked⟩ := mark
    have restSubset : ∀ other ∈ keys.filter (fun other => !decide (other = key)), other ∈ all :=
      fun other mem => subset other (List.mem_of_mem_filter mem)
    have rest := ih _ restSubset
    -- what the induction hypothesis says of the rest is what the whole list asks of it
    have restIff : ((∀ mark ∈ marks, mark.1 ∈ all →
          mark.1 ∉ keys.filter (fun other => !decide (other = key)) → mark.2 = false) ∧
        marks.Pairwise (fun first second => first.1 = second.1 → first.1 ∈ all → second.2 = false)) ↔
        (∀ mark ∈ marks, mark.1 ∈ all → mark.1 ∉ keys → mark.2 = false) ∧
          ((key, marked) :: marks).Pairwise (fun first second => first.1 = second.1 → first.1 ∈ all → second.2 = false) := by
      simp only [List.mem_filter, List.pairwise_cons]
      constructor
      · rintro ⟨unmarked, pairwise⟩
        refine ⟨fun mark mem inAll notIn => unmarked mark mem inAll (fun both => notIn both.1), ?_, pairwise⟩
        intro mark mem same inAll
        exact unmarked mark mem (same ▸ inAll) (fun both => by simp [same] at both)
      · rintro ⟨unmarked, sameKey, pairwise⟩
        refine ⟨fun mark mem inAll notIn => ?_, pairwise⟩
        by_cases same : key = mark.1
        · exact sameKey mark mem same (same ▸ inAll)
        · exact unmarked mark mem inAll (fun inKeys => notIn ⟨inKeys, by simpa using fun equal => same equal.symm⟩)
    rw [unmarkAll_cons_mark, sweep_cons, expected_cons, List.forall_mem_cons, and_assoc, ← restIff, ← rest]
    by_cases inKeys : key ∈ keys
    · simp [inKeys, subset key inKeys]
    · by_cases inAll : key ∈ all
      · cases marked with
        | false => simp [inKeys, inAll]
        | true =>
          -- a marked element of a named key that is not its first: kept too little
          have shorter := (sweep_unmarkAll_sublist _ restSubset marks).length_le
          simp only [inKeys, inAll, decide_true, decide_false, Bool.not_true, Bool.not_false, Bool.and_true,
            Bool.and_false, if_true, Bool.false_eq_true, if_false, not_false_eq_true, true_implies, Bool.true_eq_false,
            false_and, iff_false]
          intro equal
          rw [equal, List.length_cons] at shorter
          omega
      · cases marked <;> simp [inKeys, inAll]

/-- Marking, unmarking the named keys and sweeping keeps exactly what it should, unless a named key has a
later element that is marked. -/
theorem sweep_unmarkAll_eq_expected_iff : sweep (unmarkAll keys marks) = expected keys marks ↔
      marks.Pairwise (fun first second => first.1 = second.1 → first.1 ∈ keys → second.2 = false) := by
  rw [sweep_unmarkAll_eq_iff keys (fun _ mem => mem)]
  constructor
  · exact And.right
  · intro separate
    exact ⟨fun _ _ inKeys notIn => absurd inKeys notIn, separate⟩

end

end MarkSweep
