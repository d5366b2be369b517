import Dfci.Support.FirstMatch

/-! # Updating a keyed list, or adding to it

Requests are taken one after another. A request acts on the first element of its key; where there is none, it
may create one at the end of the list. Each element therefore meets the requests of its own key only, in
their order, and a question about the whole list becomes one about a single element.

The result in the end is about taking the same requests twice, with the elements marked before each turn and
swept after it. -/

namespace Upsert

open FirstMatch

variable {Request Element Key : Type*}

/-- How requests meet elements. -/
structure Rules (Request Element Key : Type*) where
  requestKey : Request → Key
  key : Element → Key
  act : Request → Element → Element
  create : Request → Option Element
  act_key : ∀ req element, key (act req element) = key element
  create_key : ∀ req element, create req = some element → key element = requestKey req

namespace Rules

variable [DecidableEq Key] (rules : Rules Request Element Key)

def upsert (elements : List Element) (req : Request) : List Element :=
  if elements.any (fun element => rules.key element = rules.requestKey req) then
    modifyFirst (fun element => rules.key element = rules.requestKey req) (rules.act req) elements
  else
    elements ++ (rules.create req).toList

def upsertAll (requests : List Request) (elements : List Element) : List Element :=
  requests.foldl rules.upsert elements

/-- The requests, on one element. -/
def actAll (requests : List Request) (element : Element) : Element :=
  requests.foldl (fun element req => rules.act req element) element

def ofKey (key : Key) (requests : List Request) : List Request :=
  requests.filter fun req => rules.requestKey req = key

def notOfKey (key : Key) (requests : List Request) : List Request :=
  requests.filter fun req => !decide (rules.requestKey req = key)

@[simp] theorem upsertAll_nil (elements : List Element) : rules.upsertAll [] elements = elements := rfl

@[simp] theorem upsertAll_cons (req : Request) (requests : List Request) (elements : List Element) :
    rules.upsertAll (req :: requests) elements = rules.upsertAll requests (rules.upsert elements req) := rfl

omit [DecidableEq Key] in
@[simp] theorem actAll_nil (element : Element) : rules.actAll [] element = element := rfl

omit [DecidableEq Key] in
@[simp] theorem actAll_cons (req : Request) (requests : List Request) (element : Element) :
    rules.actAll (req :: requests) element = rules.actAll requests (rules.act req element) := rfl

omit [DecidableEq Key] in
theorem actAll_key (requests : List Request) (element : Element) :
    rules.key (rules.actAll requests element) = rules.key element := by
  induction requests generalizing element with
  | nil => rfl
  | cons req requests ih => rw [actAll_cons, ih, rules.act_key]

/-! ## Each element meets the requests of its key -/

theorem upsert_head {head : Element} {req : Request} (same : rules.key head = rules.requestKey req)
    (tail : List Element) : rules.upsert (head :: tail) req = rules.act req head :: tail := by
  simp [upsert, modifyFirst, same]

theorem upsert_tail {head : Element} {req : Request} (other : rules.key head ≠ rules.requestKey req)
    (tail : List Element) : rules.upsert (head :: tail) req = head :: rules.upsert tail req := by
  by_cases inTail : tail.any (fun element => rules.key element = rules.requestKey req) = true
  · simp only [upsert, modifyFirst, List.any_cons, other, inTail, decide_false, Bool.false_or, Bool.false_eq_true,
      if_true, if_false]
  · simp only [upsert, List.any_cons, other, inTail, decide_false, Bool.false_or, Bool.false_eq_true, if_false,
      List.cons_append]

theorem upsertAll_head (requests : List Request) (head : Element) (tail : List Element) :
    rules.upsertAll requests (head :: tail) = rules.actAll (rules.ofKey (rules.key head) requests) head ::
        rules.upsertAll (rules.notOfKey (rules.key head) requests) tail := by
  induction requests generalizing head tail with
  | nil => rfl
  | cons req requests ih =>
    rw [upsertAll_cons]
    by_cases same : rules.key head = rules.requestKey req
    · rw [rules.upsert_head same, ih, rules.act_key]
      simp [ofKey, notOfKey, same]
    · rw [rules.upsert_tail same, ih]
      have other : ¬ rules.requestKey req = rules.key head := fun equal => same equal.symm
      simp [ofKey, notOfKey, other]

/-- Elements that were not there have the key of a request that can create one. -/
theorem mem_upsertAll {requests : List Request} {elements : List Element} {element : Element}
    (mem : element ∈ rules.upsertAll requests elements) : (∃ old ∈ elements, rules.key element = rules.key old) ∨
      ∃ req ∈ requests, rules.key element = rules.requestKey req ∧ (rules.create req).isSome := by
  induction requests generalizing elements with
  | nil => exact .inl ⟨element, mem, rfl⟩
  | cons req requests ih =>
    obtain ⟨old, inElements, same⟩ | ⟨later, inLater, found⟩ := ih mem
    · rw [upsert] at inElements
      split at inElements
      · obtain kept | ⟨original, first, rfl⟩ := mem_modifyFirst inElements
        · exact .inl ⟨old, kept, same⟩
        · exact .inl ⟨original, List.mem_of_find?_eq_some first, same.trans (rules.act_key req original)⟩
      · obtain kept | new := List.mem_append.mp inElements
        · exact .inl ⟨old, kept, same⟩
        · have creates := Option.mem_toList.mp new
          exact .inr ⟨req, List.mem_cons_self, same.trans (rules.create_key req old creates),
            Option.isSome_of_mem creates⟩
    · exact .inr ⟨later, List.mem_cons_of_mem _ inLater, found⟩

/-- A request without an element and without the means to create one changes nothing. -/
theorem upsert_nothing {elements : List Element} {req : Request} (creates : rules.create req = none)
    (absent : ∀ element ∈ elements, rules.key element ≠ rules.requestKey req) :
    rules.upsert elements req = elements := by
  have unmatched : ¬ elements.any (fun element => rules.key element = rules.requestKey req) = true := by
    simpa using absent
  simp [upsert, unmatched, creates]

/-! ## The same requests again -/

/-- What makes a second turn change nothing, element by element: one that is kept comes back to what it was,
only elements without a request are dropped, and created elements are kept. -/
structure Settles (mark : Element → Element) (keep : Element → Bool) (old : Element → Prop) : Prop where
  mark_key : ∀ element, rules.key (mark element) = rules.key element
  again : ∀ element requests, old element → keep (rules.actAll requests (mark element)) = true →
    rules.actAll requests (mark (rules.actAll requests (mark element))) = rules.actAll requests (mark element)
  dropped : ∀ element requests, old element → keep (rules.actAll requests (mark element)) = false → requests = []
  created : ∀ req element requests, rules.create req = some element →
    keep (rules.actAll requests element) = true ∧
      rules.actAll (req :: requests) (mark (rules.actAll requests element)) = rules.actAll requests element
  create_none : ∀ req other, rules.requestKey req = rules.requestKey other →
    rules.create req = none → rules.create other = none

section

variable {rules} {mark : Element → Element} {keep : Element → Bool} {old : Element → Prop}

/-- Elements that the requests themselves created come back to what they were. -/
theorem Settles.upsertAll_nil (settles : rules.Settles mark keep old) (requests : List Request) :
    rules.upsertAll requests (((rules.upsertAll requests []).filter keep).map mark) =
      (rules.upsertAll requests []).filter keep := by
  -- by the number of requests: those of a created key are taken out together
  induction size : requests.length using Nat.strongRecOn generalizing requests with
  | ind bound ih =>
    cases requests with
    | nil => rfl
    | cons req requests =>
      rw [List.length_cons] at size
      cases creates : rules.create req with
      | none =>
        have skipped : rules.upsertAll (req :: requests) [] = rules.upsertAll requests [] := by
          rw [upsertAll_cons, rules.upsert_nothing creates (List.forall_mem_nil _)]
        have absent : ∀ element ∈ ((rules.upsertAll requests []).filter keep).map mark,
            rules.key element ≠ rules.requestKey req := by
          intro element mem same
          obtain ⟨unmarked, inFilter, rfl⟩ := List.mem_map.mp mem
          rw [settles.mark_key] at same
          obtain ⟨_, inNil, _⟩ | ⟨other, _, sameKey, able⟩ := rules.mem_upsertAll (List.mem_of_mem_filter inFilter)
          · cases inNil
          · rw [settles.create_none req other (same.symm.trans sameKey) creates] at able
            cases able
        rw [skipped, upsertAll_cons, rules.upsert_nothing creates absent]
        exact ih requests.length (by omega) requests rfl
      | some element =>
        have first : rules.upsert [] req = [element] := by simp [upsert, creates]
        have key : rules.key element = rules.requestKey req := rules.create_key req element creates
        obtain ⟨kept, again⟩ := settles.created req element (rules.ofKey (rules.key element) requests) creates
        have fewer : (rules.notOfKey (rules.key element) requests).length < bound := by
          have filtered : (rules.notOfKey (rules.key element) requests).length ≤ requests.length :=
            List.length_filter_le _ _
          omega
        have rest := ih _ fewer (rules.notOfKey (rules.key element) requests) rfl
        have ofRequest : rules.ofKey (rules.key element) (req :: requests) =
            req :: rules.ofKey (rules.key element) requests := by
          simp [ofKey, key]
        have notOfRequest : rules.notOfKey (rules.key element) (req :: requests) =
            rules.notOfKey (rules.key element) requests := by
          simp [notOfKey, key]
        have once : (rules.upsertAll (req :: requests) []).filter keep =
            rules.actAll (rules.ofKey (rules.key element) requests) element ::
              (rules.upsertAll (rules.notOfKey (rules.key element) requests) []).filter keep := by
          rw [upsertAll_cons, first, upsertAll_head, List.filter_cons_of_pos kept]
        rw [once, List.map_cons, upsertAll_head, settles.mark_key, actAll_key, ofRequest, notOfRequest, again, rest]

/-- Taking the same requests again, after a mark and before a sweep, gives the same list. -/
theorem Settles.upsertAll (settles : rules.Settles mark keep old) (requests : List Request)
    {elements : List Element} (allOld : ∀ element ∈ elements, old element) :
    rules.upsertAll requests (((rules.upsertAll requests (elements.map mark)).filter keep).map mark) =
      (rules.upsertAll requests (elements.map mark)).filter keep := by
  induction elements generalizing requests with
  | nil => exact settles.upsertAll_nil requests
  | cons head tail ih =>
    obtain ⟨headOld, tailOld⟩ := List.forall_mem_cons.mp allOld
    rw [List.map_cons, upsertAll_head, settles.mark_key]
    cases kept : keep (rules.actAll (rules.ofKey (rules.key head) requests) (mark head)) with
    | true =>
      rw [List.filter_cons_of_pos kept, List.map_cons, upsertAll_head, settles.mark_key, actAll_key,
        settles.mark_key, settles.again head _ headOld kept, ih _ tailOld]
    | false =>
      have unnamed := settles.dropped head _ headOld kept
      have all : rules.notOfKey (rules.key head) requests = requests := by
        rw [notOfKey, List.filter_eq_self]
        rw [ofKey, List.filter_eq_nil_iff] at unnamed
        intro req mem
        simpa using unnamed req mem
      rw [List.filter_cons_of_neg (by simp [kept]), all]
      exact ih requests tailOld

end

end Rules

end Upsert
