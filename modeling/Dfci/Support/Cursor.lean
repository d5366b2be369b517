import Mathlib.Data.List.Basic
import Mathlib.Data.List.Nodup
import Mathlib.Tactic.Common

/-! # A search of a linked list that is resumed from the address of its last result

Every call walks the list from its head. It skips up to the node it returned last, which it knows by its address
only, and returns the first node after it that is selected. -/

namespace Cursor

variable {α ν : Type*} [DecidableEq α] (selects : ν → Bool)

/-- One call, in which `previousFound` tells whether the walk is past the last result. -/
def next (key : Option α) : Bool → List (α × ν) → Option (α × ν)
  | _, [] => none
  | previousFound, node :: nodes =>
    if key = some node.1 then next key true nodes
    else if !previousFound then next key false nodes
    else if selects node.2 then some node
    else next key true nodes

/-- What is still to be returned after the node at `key`, or from the start. -/
def remaining (key : Option α) (nodes : List (α × ν)) : List (α × ν) :=
  match key with
  | none => nodes.filter fun node => selects node.2
  | some address => ((nodes.dropWhile fun node => node.1 ≠ address).drop 1).filter fun node => selects node.2

theorem next_of_not_mem {key : Option α} {nodes : List (α × ν)} (passed : ∀ node ∈ nodes, key ≠ some node.1) :
    next selects key true nodes = (nodes.filter fun node => selects node.2).head? := by
  induction nodes with
  | nil => rfl
  | cons node nodes ih =>
    obtain ⟨notHere, passed⟩ := List.forall_mem_cons.mp passed
    rw [next, if_neg notHere]
    by_cases selected : selects node.2 = true
    · simp [selected]
    · simpa [selected] using ih passed

/-- A call returns the first of what remains. -/
theorem next_eq_head? {key : Option α} {nodes : List (α × ν)} (distinct : (nodes.map Prod.fst).Nodup) :
    next selects key key.isNone nodes = (remaining selects key nodes).head? := by
  cases key with
  | none => exact next_of_not_mem selects fun _ _ => by simp
  | some address =>
    induction nodes with
    | nil => rfl
    | cons node nodes ih =>
      obtain ⟨fresh, distinct⟩ := List.nodup_cons.mp distinct
      by_cases here : address = node.1
      · -- the addresses behind it are all different
        have passed : ∀ other ∈ nodes, some address ≠ some other.1 := by
          intro other mem same
          apply fresh
          rw [← here, Option.some.inj same]
          exact List.mem_map_of_mem mem
        simp [next, remaining, here, next_of_not_mem selects (here ▸ passed)]
      · have elsewhere : node.1 ≠ address := fun same => here same.symm
        have rest := ih distinct
        simp only [remaining] at rest
        simpa [next, remaining, here, elsewhere] using rest

/-- After a call, the rest of what remained remains. -/
theorem remaining_next {key : Option α} {nodes : List (α × ν)} (distinct : (nodes.map Prod.fst).Nodup)
    {node : α × ν} {rest : List (α × ν)} (found : remaining selects key nodes = node :: rest) :
    remaining selects (some node.1) nodes = rest := by
  -- the selected nodes of any suffix of the list are followed by those behind its first one
  have suffixed : ∀ before after : List (α × ν), ((before ++ after).map Prod.fst).Nodup →
      (after.filter fun node => selects node.2) = node :: rest → remaining selects (some node.1) (before ++ after) = rest := by
    intro before after distinct found
    obtain ⟨skipped, others, isAfter, unselected, selected, isRest⟩ := List.filter_eq_cons_iff.mp found
    have apart : ∀ other ∈ before ++ skipped, other.1 ≠ node.1 := by
      intro other mem same
      rw [isAfter, ← List.append_assoc, List.map_append, List.map_cons] at distinct
      have disjoint := (List.nodup_append.mp distinct).2.2
      exact disjoint other.1 (List.mem_map_of_mem mem) node.1 List.mem_cons_self same
    rw [remaining, isAfter, ← List.append_assoc, List.dropWhile_append_of_pos (by simpa using apart)]
    simpa using isRest
  cases key with
  | none => exact suffixed [] nodes distinct found
  | some address =>
    have split : nodes = (nodes.takeWhile (fun node => decide (node.1 ≠ address)) ++
        (nodes.dropWhile fun node => decide (node.1 ≠ address)).take 1) ++
        (nodes.dropWhile fun node => decide (node.1 ≠ address)).drop 1 := by
      rw [List.append_assoc, List.take_append_drop, List.takeWhile_append_dropWhile]
    have atEnd := suffixed _ _ (split ▸ distinct) found
    rwa [← split] at atEnd

end Cursor
