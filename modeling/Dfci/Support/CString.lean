import Mathlib.Algebra.Group.Nat.Defs
import Mathlib.Algebra.GroupWithZero.Nat
import Mathlib.Data.List.Basic
import Mathlib.Tactic.Common

/-! # Strings that end in a null

A buffer is the list of its characters from a pointer on. The accesses are checked: a function answers `none` where it
touches a character that is not in the buffer. -/

namespace CString

variable {α β : Type}

/-- The characters are written from an offset on. -/
def write (memory : List α) (offset : Nat) (chars : List α) : Option (List α) :=
  if offset + chars.length ≤ memory.length then
    some (memory.take offset ++ (chars ++ memory.drop (offset + chars.length)))
  else
    none

theorem write_inside {memory chars : List α} {offset : Nat} (inside : offset + chars.length ≤ memory.length) :
    write memory offset chars = some (memory.take offset ++ (chars ++ memory.drop (offset + chars.length))) :=
  if_pos inside

/-- Writing what comes next, after what was written. -/
theorem write_next {before memory chars : List α} {offset : Nat} (reached : before.length = offset)
    (room : chars.length ≤ memory.length) :
    write (before ++ memory) offset chars = some ((before ++ chars) ++ memory.drop chars.length) := by
  have inside : offset + chars.length ≤ (before ++ memory).length := by
    rw [List.length_append]
    omega
  rw [write_inside inside, List.take_left' reached, ← reached, List.drop_append, List.append_assoc]
  simp

theorem length_write {memory written chars : List α} {offset : Nat} (writes : write memory offset chars = some written) :
    written.length = memory.length := by
  rw [write] at writes
  split at writes
  · cases writes
    simp
    omega
  · cases writes

section

variable [OfNat α 0]

/-- The buffer starts with the string and its null. -/
structure Holds (memory string : List α) : Prop where
  plain : ∀ char ∈ string, char ≠ 0
  stored : string ++ [0] <+: memory

theorem Holds.lt_length {memory string : List α} (holds : Holds memory string) : string.length < memory.length := by
  have bound := holds.stored.length_le
  simp at bound
  omega

theorem Holds.take {memory string : List α} (holds : Holds memory string) : memory.take string.length = string := by
  obtain ⟨rest, rfl⟩ := holds.stored
  simp

/-- A buffer holds one string. -/
theorem Holds.unique {memory first second : List α} (holdsFirst : Holds memory first) (holdsSecond : Holds memory second) :
    first = second := by
  -- the null of the shorter string is no character of the longer one
  have notShorter : ∀ {short long : List α}, Holds memory short → Holds memory long → ¬ short.length < long.length := by
    intro short long holdsShort holdsLong shorter
    have inside : short ++ [0] <+: long :=
      List.prefix_of_prefix_length_le (holdsShort.stored) ((List.prefix_append long [0]).trans holdsLong.stored)
        (by simp; omega)
    exact holdsLong.plain 0 (inside.subset (by simp)) rfl
  have sameLength : first.length = second.length := by
    have left := notShorter holdsFirst holdsSecond
    have right := notShorter holdsSecond holdsFirst
    omega
  rw [← holdsFirst.take, ← holdsSecond.take, sameLength]

theorem Holds.nil_iff {memory : List α} : Holds memory [] ↔ memory.head? = some 0 := by
  constructor
  · intro holds
    obtain ⟨rest, rfl⟩ := holds.stored
    rfl
  · intro starts
    cases memory with
    | nil => cases starts
    | cons char rest =>
      obtain rfl := Option.some.inj starts
      exact ⟨List.forall_mem_nil _, rest, rfl⟩

theorem Holds.cons_iff {char : α} {memory string : List α} :
    Holds memory (char :: string) ↔ char ≠ 0 ∧ ∃ rest, memory = char :: rest ∧ Holds rest string := by
  constructor
  · intro holds
    obtain ⟨nonzero, plain⟩ := List.forall_mem_cons.mp holds.plain
    obtain ⟨behind, isMemory⟩ := holds.stored
    exact ⟨nonzero, _, isMemory.symm, plain, behind, rfl⟩
  · intro parts
    obtain ⟨nonzero, rest, rfl, holds⟩ := parts
    exact ⟨List.forall_mem_cons.mpr ⟨nonzero, holds.plain⟩, List.cons_prefix_cons.mpr ⟨rfl, holds.stored⟩⟩

/-- Characters and a null, written over the end of a string. -/
theorem Holds.overwrite {memory string : List α} (holds : Holds memory string) {kept : Nat} (within : kept ≤ string.length)
    (more : List α) (plain : ∀ char ∈ more, char ≠ 0) (room : kept + more.length < memory.length) :
    ∃ written, write memory kept (more ++ [0]) = some written ∧ Holds written (string.take kept ++ more) := by
  have inside : kept + (more ++ [0]).length ≤ memory.length := by
    simp
    omega
  have isKept : memory.take kept = string.take kept := by
    rw [← holds.take, List.take_take, Nat.min_eq_left within]
  refine ⟨_, write_inside inside, ?_, ?_⟩
  · intro char mem
    exact (List.mem_append.mp mem).elim (fun old => holds.plain char (List.mem_of_mem_take old)) (plain char)
  · rw [isKept]
    exact ⟨memory.drop (kept + (more ++ [0]).length), by simp⟩

variable [DecidableEq α]

/-- The length of the string in a buffer, of which at most `max` characters are looked at. -/
def scan : List α → Nat → Option Nat
  | _, 0 => some 0
  | [], _ + 1 => none
  | char :: rest, max + 1 => if char = 0 then some 0 else (scan rest max).map (· + 1)

theorem Holds.scan {memory string : List α} (holds : Holds memory string) (max : Nat) :
    scan memory max = some (min string.length max) := by
  obtain ⟨rest, rfl⟩ := holds.stored
  have plain := holds.plain
  clear holds
  induction string generalizing max with
  | nil => cases max <;> simp [CString.scan]
  | cons char string ih =>
    obtain ⟨nonzero, others⟩ := List.forall_mem_cons.mp plain
    cases max with
    | zero => simp [CString.scan]
    | succ max =>
      have counted := ih max others
      rw [List.cons_append, List.cons_append, CString.scan, if_neg nonzero, counted, Option.map_some, List.length_cons,
        Nat.add_min_add_right]

/-- Looking for the null stays in the buffer if it is there, or if the bound is. -/
theorem scan_isSome_iff {memory : List α} {max : Nat} :
    (CString.scan memory max).isSome = true ↔ max ≤ memory.length ∨ 0 ∈ memory := by
  induction memory generalizing max with
  | nil => cases max <;> simp [CString.scan]
  | cons char rest ih =>
    cases max with
    | zero => simp [CString.scan]
    | succ max =>
      rw [CString.scan]
      by_cases isNull : char = 0
      · simp [isNull]
      · rw [if_neg isNull, Option.isSome_map, ih, List.mem_cons, List.length_cons, Nat.succ_le_succ_iff]
        simp [Ne.symm isNull]

/-- The string that a buffer holds, if there is a null in it. -/
def string : List α → Option (List α)
  | [] => none
  | char :: rest => if char = 0 then some [] else (string rest).map (char :: ·)

theorem string_eq_some {memory chars : List α} : string memory = some chars ↔ Holds memory chars := by
  induction memory generalizing chars with
  | nil =>
    have none : ¬ Holds ([] : List α) chars := fun holds => absurd holds.lt_length (by simp)
    simp [string, none]
  | cons char rest ih =>
    by_cases isNull : char = 0
    · cases chars with
      | nil => simp [string, isNull, Holds.nil_iff]
      | cons first chars =>
        simp only [string, isNull, if_true, Option.some.injEq, Holds.cons_iff, List.cons.injEq, reduceCtorEq, false_iff]
        intro holds
        obtain ⟨nonzero, _, ⟨rfl, _⟩, _⟩ := holds
        exact nonzero rfl
    · cases chars with
      | nil => simp [string, isNull, Holds.nil_iff]
      | cons first chars =>
        rw [string, if_neg isNull, Option.map_eq_some_iff, Holds.cons_iff]
        constructor
        · intro isString
          obtain ⟨found, isFound, same⟩ := isString
          obtain ⟨rfl, rfl⟩ := List.cons.inj same
          exact ⟨isNull, rest, rfl, ih.mp isFound⟩
        · intro parts
          obtain ⟨_, other, same, holds⟩ := parts
          obtain ⟨rfl, rfl⟩ := List.cons.inj same
          exact ⟨chars, ih.mpr holds, rfl⟩

/-! ## Searching and comparing -/

/-- Where a pattern without nulls occurs first in the string of a buffer, if it does. -/
def strStr (pattern : List α) : List α → Option (Option Nat)
  | [] => none
  | char :: rest =>
    if char = 0 then some none
    else if pattern.isPrefixOf (char :: rest) then some (some 0)
    else (strStr pattern rest).map (Option.map (· + 1))

/-- What is behind the first occurrence has no part in it. -/
theorem strStr_first {pattern front : List α}
    (first : strStr pattern (front ++ (pattern ++ [0])) = some (some front.length)) (rest : List α) :
    strStr pattern (front ++ (pattern ++ rest)) = some (some front.length) := by
  induction front with
  | nil =>
    cases pattern with
    | nil => simp [strStr] at first
    | cons char pattern =>
      have nonzero : char ≠ 0 := by
        rintro rfl
        simp [strStr] at first
      have found : (char :: pattern).isPrefixOf (char :: (pattern ++ rest)) = true :=
        List.isPrefixOf_iff_prefix.mpr ⟨rest, rfl⟩
      rw [List.nil_append, List.cons_append, strStr, if_neg nonzero, if_pos found]
      rfl
  | cons char front ih =>
    rw [List.cons_append, strStr] at first ⊢
    by_cases isNull : char = 0
    · simp [isNull] at first
    · rw [if_neg isNull] at first ⊢
      have missed : ¬ pattern.isPrefixOf (char :: (front ++ (pattern ++ [0]))) = true := by
        intro found
        rw [if_pos found] at first
        simp at first
      have stillMissed : ¬ pattern.isPrefixOf (char :: (front ++ (pattern ++ rest))) = true := by
        intro found
        rw [List.isPrefixOf_iff_prefix] at missed found
        have inFront : pattern <+: char :: (front ++ pattern) := by
          refine List.prefix_of_prefix_length_le found ⟨rest, by simp⟩ ?_
          simp
          omega
        exact missed (inFront.trans ⟨[0], by simp⟩)
      rw [if_neg missed] at first
      have later : strStr pattern (front ++ (pattern ++ [0])) = some (some front.length) := by
        simpa [Option.map_eq_some_iff] using first
      rw [if_neg stillMissed, ih later]
      rfl

theorem strStr_lt {pattern text : List α} {i : Nat} (found : strStr pattern text = some (some i)) :
    i < text.length := by
  induction text generalizing i with
  | nil => cases found
  | cons char rest ih =>
    rw [strStr] at found
    split at found
    · cases found
    split at found
    · cases found
      simp
    · obtain ⟨later, isLater, same⟩ := Option.map_eq_some_iff.mp found
      obtain ⟨before, rfl, rfl⟩ := Option.map_eq_some_iff.mp same
      have bound := ih isLater
      simp
      omega

/-- Whether two buffers hold the same string. -/
def sameString : List α → List α → Option Bool
  | [], _ => none
  | _ :: _, [] => none
  | first :: firsts, second :: seconds =>
    if first ≠ second then some false
    else if first = 0 then some true
    else sameString firsts seconds

/-- Comparing with a string finds out whether the buffer holds it. It runs off the buffer if that ends within the
string. -/
theorem sameString_eq {memory second string : List α} (holds : Holds second string) :
    (sameString memory second = some true ↔ Holds memory string) ∧
      (sameString memory second = none ↔ memory <+: string) := by
  induction string generalizing memory second with
  | nil =>
    obtain ⟨rest, rfl⟩ := holds.stored
    cases memory with
    | nil => simp [sameString, Holds.nil_iff]
    | cons char memory =>
      by_cases isNull : char = 0
      · simp [sameString, Holds.nil_iff, isNull]
      · simp [sameString, Holds.nil_iff, isNull]
  | cons char string ih =>
    obtain ⟨nonzero, second, rfl, holdsRest⟩ := Holds.cons_iff.mp holds
    cases memory with
    | nil => simp [sameString, Holds.cons_iff]
    | cons first memory =>
      by_cases same : first = char
      · subst same
        have rest := @ih memory second holdsRest
        simp [sameString, Holds.cons_iff, nonzero, List.cons_prefix_cons, rest]
      · simp [sameString, Holds.cons_iff, same]

/-- Why a function with a bound leaves its destination as it is. -/
inductive Refusal where
  | badBufferSize
  | bufferTooSmall
  deriving DecidableEq

/-- Appends at most `length` characters of a source, where the destination has room for `destMax`. -/
def strnCat (destMax : Nat) (dest source : List α) (length : Nat) : Option (Except Refusal (List α)) := do
  let destLen ← scan dest destMax
  let copyLen := destMax - destLen
  if copyLen = 0 then
    return .error .badBufferSize
  let sourceLen ← scan source (min copyLen length)
  if copyLen ≤ length ∧ copyLen ≤ sourceLen then
    return .error .bufferTooSmall
  let written ← write dest destLen (source.take sourceLen ++ [0])
  return .ok written

/-- Appending a whole string: it is there if it fits with its null, and else nothing is changed. -/
theorem strnCat_eq {destMax : Nat} {dest source string more : List α} (holds : Holds dest string)
    (appends : Holds source more) (short : string.length < destMax) (room : destMax ≤ dest.length) :
    (string.length + more.length < destMax ∧ ∃ written, strnCat destMax dest source more.length = some (.ok written) ∧
      Holds written (string ++ more) ∧ written.length = dest.length) ∨
    (destMax ≤ string.length + more.length ∧ strnCat destMax dest source more.length = some (.error .bufferTooSmall)) := by
  have destLen : scan dest destMax = some string.length := by
    rw [holds.scan, Nat.min_eq_left (Nat.le_of_lt short)]
  have space : destMax - string.length ≠ 0 := by omega
  by_cases fits : string.length + more.length < destMax
  · refine .inl ⟨fits, ?_⟩
    obtain ⟨written, writes, holdsBoth⟩ :=
      holds.overwrite (Nat.le_refl string.length) more appends.plain (Nat.lt_of_lt_of_le fits room)
    rw [List.take_length] at holdsBoth
    refine ⟨written, ?_, holdsBoth, length_write writes⟩
    have sourceLen : scan source (min (destMax - string.length) more.length) = some more.length := by
      rw [appends.scan]
      congr 1
      omega
    have enough : ¬ (destMax - string.length ≤ more.length ∧ destMax - string.length ≤ more.length) := by omega
    simp only [strnCat, destLen, Option.bind_eq_bind, Option.bind_some, if_neg space, sourceLen, if_neg enough,
      appends.take, writes, Option.pure_def]
  · refine .inr ⟨Nat.not_lt.mp fits, ?_⟩
    have sourceLen : scan source (min (destMax - string.length) more.length) = some (destMax - string.length) := by
      rw [appends.scan]
      congr 1
      omega
    have tooSmall : destMax - string.length ≤ more.length ∧ destMax - string.length ≤ destMax - string.length := by omega
    simp only [strnCat, destLen, Option.bind_eq_bind, Option.bind_some, if_neg space, sourceLen, if_pos tooSmall,
      Option.pure_def]

/-- Copies a source character by character into a destination that has room for `destMax`. -/
def strConvert [OfNat β 0] (widen : α → β) (destMax : Nat) (source : List α) (dest : List β) :
    Option (Except Refusal (List β)) := do
  let sourceLen ← scan source destMax
  if destMax ≤ sourceLen then
    return .error .bufferTooSmall
  let written ← write dest 0 ((source.take sourceLen).map widen ++ [0])
  return .ok written

section

variable [OfNat β 0] {widen : α → β} {destMax : Nat} {source text : List α} {dest : List β}

/-- A string that fits is copied with its null. -/
theorem strConvert_eq (holds : Holds source text) (nonzero : ∀ char ∈ text, widen char ≠ 0) (fits : text.length < destMax)
    (room : destMax ≤ dest.length) :
    ∃ written, strConvert widen destMax source dest = some (.ok written) ∧ Holds written (text.map widen) := by
  have length : scan source destMax = some text.length := by
    rw [holds.scan, Nat.min_eq_left (Nat.le_of_lt fits)]
  have inside : 0 + (text.map widen ++ [0]).length ≤ dest.length := by
    simp
    omega
  refine ⟨text.map widen ++ [0] ++ dest.drop (0 + (text.map widen ++ [0]).length), ?_, ?_, List.prefix_append _ _⟩
  · simp only [strConvert, length, Option.bind_eq_bind, Option.bind_some, if_neg (Nat.not_le.mpr fits), holds.take,
      write_inside inside, Option.pure_def, List.take_zero, List.nil_append]
  · intro char mem
    obtain ⟨original, inText, rfl⟩ := List.mem_map.mp mem
    exact nonzero original inText

theorem strConvert_refused (holds : Holds source text) (long : destMax ≤ text.length) :
    strConvert widen destMax source dest = some (.error .bufferTooSmall) := by
  have length : scan source destMax = some destMax := by
    rw [holds.scan, Nat.min_eq_right long]
  simp only [strConvert, length, Option.bind_eq_bind, Option.bind_some, if_pos (Nat.le_refl destMax), Option.pure_def]

end

end

end CString
