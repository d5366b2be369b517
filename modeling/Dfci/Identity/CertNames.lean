import Dfci.Base

/-! # The names in a certificate

The subject and the issuer as `GetSubjectName8` and the like return them: the string of the crypto library, cut to a
length that the caller gives. The two names are cut in different ways. -/

namespace Dfci

open CString

/-- `MAX_SUBJECT_ISSUER_LENGTH` -/
def maxSubjectIssuerLength : Nat := 300

/-- `MORE_INDICATOR` -/
def moreIndicator : List Byte := [0x2E, 0x2E, 0x2E]

/-- `MaxStringLength - sizeof (MORE_INDICATOR) + 1`, in `UINTN` arithmetic. -/
def moreIndex (limit : Nat) : Nat :=
  (limit + (2 ^ 64 - (moreIndicator.length + 1)) + 1) % 2 ^ 64

/-- What a call leaves: the status, or the buffer and the size that are returned. There is no answer where it writes
outside its buffers. -/
abbrev NameCall (Char : Type) := Option (Except EfiStatus (List Char × Nat))

section

-- the name is what `X509GetCommonName` or `X509GetOrganizationName` gives
variable (name : Except EfiStatus AsciiString) (limit : Nat)

/-- `GetSubjectName8` -/
def getSubjectName8 : NameCall Byte :=
  if limit = 0 ∨ maxSubjectIssuerLength < limit then
    some (.error .unsupported)
  else
    match name with
    | .error status => some (.error status)
    | .ok name =>
      if limit + 1 < name.toMemory.length then
        (write name.toMemory (moreIndex limit) (moreIndicator ++ [0])).map fun memory =>
          .ok (memory, limit + 1)
      else
        some (.ok (name.toMemory, name.toMemory.length))

/-- `GetIssuerName8` -/
def getIssuerName8 : NameCall Byte :=
  if limit = 0 ∨ maxSubjectIssuerLength < limit then
    some (.error .unsupported)
  else
    match name with
    | .error status => some (.error status)
    | .ok name =>
      if limit ≤ name.toMemory.length then
        (write name.toMemory limit [0]).map fun memory => .ok (memory, limit)
      else
        some (.ok (name.toMemory, name.toMemory.length))

def Refusal.status : Refusal → EfiStatus
  | .badBufferSize => .badBufferSize
  | .bufferTooSmall => .bufferTooSmall

/-- A `CHAR8` as a `CHAR16`. -/
def widen (char : Byte) : BitVec 16 := char.setWidth 16

-- what `AllocatePool` returns for a number of `CHAR16`
variable (fresh : Nat → List (BitVec 16))

/-- `GetSubjectName16` -/
def getSubjectName16 : NameCall (BitVec 16) :=
  if limit = 0 ∨ maxSubjectIssuerLength < limit then
    some (.error .invalidParameter)
  else
    (getSubjectName8 name limit).bind fun
      | .error status => some (.error status)
      | .ok (asciiName, asciiNameSize) =>
        (strConvert widen asciiNameSize asciiName (fresh asciiNameSize)).map fun
          | .error refusal => .error (Refusal.status refusal)
          | .ok nameBuffer => .ok (nameBuffer, asciiNameSize * 2)

/-- `GetIssuerName16`, which does not look at the status of the conversion. -/
def getIssuerName16 : NameCall (BitVec 16) :=
  if limit = 0 ∨ maxSubjectIssuerLength < limit then
    some (.error .invalidParameter)
  else
    (getIssuerName8 name limit).bind fun
      | .error status => some (.error status)
      | .ok (asciiName, asciiNameSize) =>
        (strConvert widen asciiNameSize asciiName (fresh asciiNameSize)).map fun
          | .error _ => .ok (fresh asciiNameSize, asciiNameSize * 2)
          | .ok nameBuffer => .ok (nameBuffer, asciiNameSize * 2)

end

/-! ## Faithful names -/

/-- The name, or what is left of it where it is longer than the caller allows. -/
structure FaithfulName (name : AsciiString) (limit : Nat) (cut : List Byte → Prop) (text : List Byte) :
    Prop where
  short : text.length ≤ limit
  whole : name.chars.length ≤ limit → text = name.chars
  cut : limit < name.chars.length → cut text

def SubjectCut (name : AsciiString) (limit : Nat) (text : List Byte) : Prop :=
  text = name.chars.take (limit - moreIndicator.length) ++ moreIndicator

def IssuerCut (name : AsciiString) (text : List Byte) : Prop :=
  text <+: name.chars

structure Name8Law (name : AsciiString) (limit : Nat) (cut : List Byte → Prop) (call : NameCall Byte) : Prop where
  inside : call.isSome = true
  faithful : ∀ memory size, call = some (.ok (memory, size)) →
    ∃ text, Holds memory text ∧ FaithfulName name limit cut text ∧ size = text.length + 1

/-- What a caller expects of a 16-bit name: the same characters as in the 8-bit one. -/
structure Name16Law (name : AsciiString) (limit : Nat) (cut : List Byte → Prop) (call8 : NameCall Byte)
    (call : NameCall (BitVec 16)) : Prop where
  inside : call.isSome = true
  faithful : ∀ memory size, call = some (.ok (memory, size)) →
    ∃ memory8 size8 text, call8 = some (.ok (memory8, size8)) ∧ Holds memory8 text ∧ Holds memory (text.map widen) ∧
      FaithfulName name limit cut text ∧ size = (text.length + 1) * 2

theorem widen_ne_zero {char : Byte} (nonzero : char ≠ 0) : widen char ≠ 0 := by
  intro zero
  apply nonzero
  have same : char.toNat = 0 := by
    have widened := congrArg BitVec.toNat zero
    have small := char.isLt
    simp only [widen, BitVec.toNat_setWidth, BitVec.ofNat_eq_ofNat, BitVec.toNat_ofNat] at widened
    omega
  exact BitVec.eq_of_toNat_eq same

section

variable {name : AsciiString} {limit : Nat}

theorem moreIndex_of_le (long : moreIndicator.length ≤ limit) (accepted : limit ≤ maxSubjectIssuerLength) :
    moreIndex limit = limit - moreIndicator.length := by
  simp only [moreIndex, moreIndicator, maxSubjectIssuerLength, List.length_cons, List.length_nil] at long accepted ⊢
  omega

theorem moreIndex_of_lt (short : limit < moreIndicator.length) :
    moreIndex limit = 2 ^ 64 - (moreIndicator.length - limit) := by
  simp only [moreIndex, moreIndicator, List.length_cons, List.length_nil] at short ⊢
  omega

variable (positive : 0 < limit) (accepted : limit ≤ maxSubjectIssuerLength)
include positive accepted

theorem accepts_maxStringLength : ¬ (limit = 0 ∨ maxSubjectIssuerLength < limit) := by
  omega

/-- A short subject. -/
theorem getSubjectName8_whole (short : name.chars.length ≤ limit) :
    getSubjectName8 (.ok name) limit = some (.ok (name.toMemory, name.chars.length + 1)) := by
  rw [getSubjectName8, if_neg (accepts_maxStringLength positive accepted)]
  simp only [AsciiString.length_toMemory]
  rw [if_neg (by omega)]

/-- A long subject: the indicator is written over its end. -/
theorem getSubjectName8_cut (long : limit < name.chars.length) (room : moreIndicator.length ≤ limit) :
    ∃ memory, getSubjectName8 (.ok name) limit = some (.ok (memory, limit + 1)) ∧
      Holds memory (name.chars.take (limit - moreIndicator.length) ++ moreIndicator) := by
  have isCut : limit + 1 < name.toMemory.length := by simpa using long
  have within : limit - moreIndicator.length ≤ name.chars.length := by omega
  have fits : limit - moreIndicator.length + moreIndicator.length < name.toMemory.length := by omega
  obtain ⟨memory, writes, holds⟩ := name.holds_toMemory.overwrite within moreIndicator (by decide) fits
  refine ⟨memory, ?_, holds⟩
  rw [getSubjectName8, if_neg (accepts_maxStringLength positive accepted)]
  simp only [if_pos isCut, moreIndex_of_le room accepted, writes, Option.map_some]

omit accepted in
/-- A long subject for which the caller has no room for the indicator: it is written before the buffer. -/
theorem getSubjectName8_outside (counts : name.toMemory.length < 2 ^ 64) (long : limit < name.chars.length)
    (noRoom : limit < moreIndicator.length) : getSubjectName8 (.ok name) limit = none := by
  have three : moreIndicator.length = 3 := rfl
  have isCut : limit + 1 < name.toMemory.length := by simpa using long
  have outside : ¬ moreIndex limit + (moreIndicator ++ [0]).length ≤ name.toMemory.length := by
    rw [moreIndex_of_lt noRoom, List.length_append, three]
    omega
  have accepted : limit ≤ maxSubjectIssuerLength := by
    rw [maxSubjectIssuerLength]
    omega
  rw [getSubjectName8, if_neg (accepts_maxStringLength positive accepted)]
  simp only [if_pos isCut, write, if_neg outside, Option.map_none]

/-! The issuer. -/

theorem getIssuerName8_whole (short : name.chars.length + 1 < limit) :
    getIssuerName8 (.ok name) limit = some (.ok (name.toMemory, name.chars.length + 1)) := by
  rw [getIssuerName8, if_neg (accepts_maxStringLength positive accepted)]
  simp only [AsciiString.length_toMemory]
  rw [if_neg (by omega)]

/-- The null is written right behind an issuer that has the length that is asked for with its null. -/
theorem getIssuerName8_outside (exact : name.chars.length + 1 = limit) : getIssuerName8 (.ok name) limit = none := by
  have isCut : limit ≤ name.toMemory.length := by simp [exact]
  have outside : ¬ limit + [(0 : Byte)].length ≤ name.toMemory.length := by simp [exact]
  rw [getIssuerName8, if_neg (accepts_maxStringLength positive accepted)]
  simp only [if_pos isCut, write, if_neg outside, Option.map_none]

/-- The size that is returned with a long issuer leaves out the null. -/
theorem getIssuerName8_cut (long : limit ≤ name.chars.length) :
    ∃ memory, getIssuerName8 (.ok name) limit = some (.ok (memory, limit)) ∧
      Holds memory (name.chars.take limit) := by
  have isCut : limit ≤ name.toMemory.length := by
    simp
    omega
  have fits : limit + 0 < name.toMemory.length := by
    simp
    omega
  obtain ⟨memory, writes, holds⟩ := name.holds_toMemory.overwrite long [] (List.forall_mem_nil _) fits
  rw [List.append_nil] at holds
  rw [List.nil_append] at writes
  refine ⟨memory, ?_, holds⟩
  rw [getIssuerName8, if_neg (accepts_maxStringLength positive accepted)]
  simp only [if_pos isCut, writes, Option.map_some]

end

/-! ## The laws -/

section

variable {name : AsciiString} {limit : Nat} {cut : List Byte → Prop}

theorem not_name8Law_none : ¬ Name8Law name limit cut none :=
  fun law => Bool.false_ne_true law.inside

theorem not_name16Law_none {call8 : NameCall Byte} : ¬ Name16Law name limit cut call8 none :=
  fun law => Bool.false_ne_true law.inside

/-- The text of a buffer is unique, so the law is about it. -/
theorem name8Law_iff {memory text : List Byte} (holds : Holds memory text) {size : Nat} :
    Name8Law name limit cut (some (.ok (memory, size))) ↔
      FaithfulName name limit cut text ∧ size = text.length + 1 := by
  constructor
  · intro law
    obtain ⟨other, holdsOther, faithful, isSize⟩ := law.faithful memory size rfl
    rw [holds.unique holdsOther]
    exact ⟨faithful, isSize⟩
  · rintro ⟨faithful, isSize⟩
    refine ⟨rfl, fun _ _ same => ?_⟩
    cases same
    exact ⟨text, holds, faithful, isSize⟩

theorem name16Law_iff {memory8 text : List Byte} (holds : Holds memory8 text) {size8 : Nat} {memory : List (BitVec 16)}
    {size : Nat} : Name16Law name limit cut (some (.ok (memory8, size8))) (some (.ok (memory, size))) ↔
      Holds memory (text.map widen) ∧ FaithfulName name limit cut text ∧ size = (text.length + 1) * 2 := by
  constructor
  · intro law
    obtain ⟨_, _, other, same, holdsOther, holdsWide, faithful, isSize⟩ := law.faithful memory size rfl
    cases same
    rw [holds.unique holdsOther]
    exact ⟨holdsWide, faithful, isSize⟩
  · rintro ⟨holdsWide, faithful, isSize⟩
    refine ⟨rfl, fun _ _ same => ?_⟩
    cases same
    exact ⟨memory8, size8, text, rfl, holds, holdsWide, faithful, isSize⟩

theorem faithfulName_whole (short : name.chars.length ≤ limit) : FaithfulName name limit cut name.chars where
  short := short
  whole _ := rfl
  cut long := absurd short (Nat.not_le.mpr long)

theorem faithfulName_subjectCut (long : limit < name.chars.length) (room : moreIndicator.length ≤ limit) :
    FaithfulName name limit (SubjectCut name limit)
      (name.chars.take (limit - moreIndicator.length) ++ moreIndicator) where
  short := by
    rw [List.length_append, List.length_take]
    omega
  whole short := absurd short (Nat.not_le.mpr long)
  cut _ := rfl

variable {fresh : Nat → List (BitVec 16)} (allocates : ∀ count, (fresh count).length = count) {memory text : List Byte}
  {size : Nat}

include allocates in
/-- A string that fits in what is returned with it. -/
theorem convert_widen (holds : Holds memory text) (fits : text.length < size) :
    ∃ wide, strConvert widen size memory (fresh size) = some (.ok wide) ∧ Holds wide (text.map widen) :=
  strConvert_eq holds (fun char mem => widen_ne_zero (holds.plain char mem)) fits
    (Nat.le_of_eq (allocates size).symm)

variable (positive : 0 < limit) (accepted : limit ≤ maxSubjectIssuerLength)
include positive accepted

include allocates in
theorem getSubjectName16_eq (is : getSubjectName8 (.ok name) limit = some (.ok (memory, size)))
    (holds : Holds memory text) (fits : text.length < size) :
    ∃ wide, getSubjectName16 (.ok name) limit fresh = some (.ok (wide, size * 2)) ∧ Holds wide (text.map widen) := by
  obtain ⟨wide, converts, holdsWide⟩ := convert_widen allocates holds fits
  refine ⟨wide, ?_, holdsWide⟩
  rw [getSubjectName16, if_neg (accepts_maxStringLength positive accepted), is]
  simp only [Option.bind_some, converts, Option.map_some]

include allocates in
theorem getIssuerName16_eq (is : getIssuerName8 (.ok name) limit = some (.ok (memory, size)))
    (holds : Holds memory text) (fits : text.length < size) :
    ∃ wide, getIssuerName16 (.ok name) limit fresh = some (.ok (wide, size * 2)) ∧ Holds wide (text.map widen) := by
  obtain ⟨wide, converts, holdsWide⟩ := convert_widen allocates holds fits
  refine ⟨wide, ?_, holdsWide⟩
  rw [getIssuerName16, if_neg (accepts_maxStringLength positive accepted), is]
  simp only [Option.bind_some, converts, Option.map_some]

/-- Without room for the null nothing is converted, and the buffer is returned as it was allocated. -/
theorem getIssuerName16_refused (is : getIssuerName8 (.ok name) limit = some (.ok (memory, size)))
    (holds : Holds memory text) (long : size ≤ text.length) :
    getIssuerName16 (.ok name) limit fresh = some (.ok (fresh size, size * 2)) := by
  have refused : strConvert widen size memory (fresh size) = some (.error .bufferTooSmall) := strConvert_refused holds long
  rw [getIssuerName16, if_neg (accepts_maxStringLength positive accepted), is]
  simp only [Option.bind_some, refused, Option.map_some]

include allocates in
theorem subjectLaws_iff (counts : name.toMemory.length < 2 ^ 64) :
    let subject8 := getSubjectName8 (.ok name) limit
    let short := name.chars.length ≤ limit ∨ moreIndicator.length ≤ limit
    (Name8Law name limit (SubjectCut name limit) subject8 ↔ short) ∧
    (Name16Law name limit (SubjectCut name limit) subject8
      (getSubjectName16 (.ok name) limit fresh) ↔ short) := by
  simp only
  by_cases whole : name.chars.length ≤ limit
  · have is := getSubjectName8_whole positive accepted whole
    have faithful : FaithfulName name limit (SubjectCut name limit) name.chars := faithfulName_whole whole
    obtain ⟨wide, isWide, holdsWide⟩ :=
      getSubjectName16_eq allocates positive accepted is name.holds_toMemory (Nat.lt_succ_self _)
    rw [isWide, is]
    exact ⟨iff_of_true ((name8Law_iff name.holds_toMemory).mpr ⟨faithful, rfl⟩) (.inl whole),
      iff_of_true ((name16Law_iff name.holds_toMemory).mpr ⟨holdsWide, faithful, rfl⟩) (.inl whole)⟩
  · have long : limit < name.chars.length := Nat.not_le.mp whole
    by_cases room : moreIndicator.length ≤ limit
    · obtain ⟨memory, is, holds⟩ := getSubjectName8_cut positive accepted long room
      have faithful := faithfulName_subjectCut long room
      have length : (name.chars.take (limit - moreIndicator.length) ++ moreIndicator).length = limit := by
        rw [List.length_append, List.length_take]
        omega
      obtain ⟨wide, isWide, holdsWide⟩ := getSubjectName16_eq allocates positive accepted is holds (by omega)
      rw [isWide, is]
      exact ⟨iff_of_true ((name8Law_iff holds).mpr ⟨faithful, by omega⟩) (.inr room),
        iff_of_true ((name16Law_iff holds).mpr ⟨holdsWide, faithful, by omega⟩) (.inr room)⟩
    · have is := getSubjectName8_outside positive counts long (Nat.not_le.mp room)
      have isWide : getSubjectName16 (.ok name) limit fresh = none := by
        rw [getSubjectName16, if_neg (accepts_maxStringLength positive accepted), is]
        rfl
      rw [isWide, is]
      exact ⟨iff_of_false not_name8Law_none (by omega), iff_of_false not_name16Law_none (by omega)⟩

include allocates in
theorem issuerLaws_iff :
    let issuer8 := getIssuerName8 (.ok name) limit
    let short := name.chars.length + 1 < limit
    (Name8Law name limit (IssuerCut name) issuer8 ↔ short) ∧
    (Name16Law name limit (IssuerCut name) issuer8 (getIssuerName16 (.ok name) limit fresh) ↔ short) := by
  simp only
  rcases Nat.lt_trichotomy (name.chars.length + 1) limit with short | exact | long
  · have is := getIssuerName8_whole positive accepted short
    have faithful : FaithfulName name limit (IssuerCut name) name.chars := faithfulName_whole (by omega)
    obtain ⟨wide, isWide, holdsWide⟩ :=
      getIssuerName16_eq allocates positive accepted is name.holds_toMemory (Nat.lt_succ_self _)
    rw [isWide, is]
    exact ⟨iff_of_true ((name8Law_iff name.holds_toMemory).mpr ⟨faithful, rfl⟩) short,
      iff_of_true ((name16Law_iff name.holds_toMemory).mpr ⟨holdsWide, faithful, rfl⟩) short⟩
  · have is := getIssuerName8_outside positive accepted exact
    have isWide : getIssuerName16 (.ok name) limit fresh = none := by
      rw [getIssuerName16, if_neg (accepts_maxStringLength positive accepted), is]
      rfl
    rw [isWide, is]
    exact ⟨iff_of_false not_name8Law_none (by omega), iff_of_false not_name16Law_none (by omega)⟩
  · have cut : limit ≤ name.chars.length := Nat.le_of_lt_succ long
    obtain ⟨memory, is, holds⟩ := getIssuerName8_cut positive accepted cut
    have length : (name.chars.take limit).length = limit := by
      rw [List.length_take]
      omega
    rw [getIssuerName16_refused positive accepted is holds (Nat.le_of_eq length.symm), is]
    refine ⟨iff_of_false (fun law => ?_) (by omega), iff_of_false (fun law => ?_) (by omega)⟩
    · -- the size leaves out the null
      have isSize := ((name8Law_iff holds).mp law).2
      omega
    · -- the buffer is too small for the string and its null
      have bound := ((name16Law_iff holds).mp law).1.lt_length
      rw [List.length_map, allocates, length] at bound
      exact Nat.lt_irrefl _ bound

include allocates in
/-- The names are faithful exactly when: the subject is short enough or leaves room for the indicator; the issuer is
shorter by two characters than the caller allows. -/
theorem nameLaws_iff (counts : name.toMemory.length < 2 ^ 64) :
    let subject8 := getSubjectName8 (.ok name) limit
    let issuer8 := getIssuerName8 (.ok name) limit
    let shortSubject := name.chars.length ≤ limit ∨ moreIndicator.length ≤ limit
    let shortIssuer := name.chars.length + 1 < limit
    (Name8Law name limit (SubjectCut name limit) subject8 ↔ shortSubject) ∧
    (Name16Law name limit (SubjectCut name limit) subject8 (getSubjectName16 (.ok name) limit fresh) ↔ shortSubject) ∧
    (Name8Law name limit (IssuerCut name) issuer8 ↔ shortIssuer) ∧
    (Name16Law name limit (IssuerCut name) issuer8 (getIssuerName16 (.ok name) limit fresh) ↔
      shortIssuer) := by
  have subject := subjectLaws_iff allocates positive accepted counts
  exact ⟨subject.1, subject.2, issuerLaws_iff allocates positive accepted⟩

end

def tenChars : AsciiString := .ofString "0123456789"

def unclearedPool (count : Nat) : List (BitVec 16) := List.replicate count 0xAFAF

theorem nameLaws_tenChars : (Name8Law tenChars 4 (SubjectCut tenChars 4) (getSubjectName8 (.ok tenChars) 4) ∧
      Name16Law tenChars 4 (SubjectCut tenChars 4) (getSubjectName8 (.ok tenChars) 4)
        (getSubjectName16 (.ok tenChars) 4 unclearedPool)) ∧
    (Name8Law tenChars 12 (IssuerCut tenChars) (getIssuerName8 (.ok tenChars) 12) ∧
      Name16Law tenChars 12 (IssuerCut tenChars) (getIssuerName8 (.ok tenChars) 12)
        (getIssuerName16 (.ok tenChars) 12 unclearedPool)) := by
  have allocates : ∀ count, (unclearedPool count).length = count := fun count => List.length_replicate
  have counts : tenChars.toMemory.length < 2 ^ 64 := by decide
  have cut := nameLaws_iff allocates (by decide : 0 < 4) (by decide) counts
  have whole := nameLaws_iff allocates (by decide : 0 < 12) (by decide) counts
  exact ⟨⟨cut.1.mpr (by decide), cut.2.1.mpr (by decide)⟩, ⟨whole.2.2.1.mpr (by decide), whole.2.2.2.mpr (by decide)⟩⟩

/-- The subject for which two characters are asked is marked before its buffer. The issuer that is as long as is asked has
a size without its null, and is not converted; one that is shorter by one has its null written behind its buffer. -/
theorem nameLaws_broken : ¬ Name8Law tenChars 2 (SubjectCut tenChars 2) (getSubjectName8 (.ok tenChars) 2) ∧
    ¬ Name8Law tenChars 10 (IssuerCut tenChars) (getIssuerName8 (.ok tenChars) 10) ∧
    ¬ Name16Law tenChars 10 (IssuerCut tenChars) (getIssuerName8 (.ok tenChars) 10)
      (getIssuerName16 (.ok tenChars) 10 unclearedPool) ∧
    ¬ Name8Law tenChars 11 (IssuerCut tenChars) (getIssuerName8 (.ok tenChars) 11) := by
  have evaluated : getSubjectName8 (.ok tenChars) 2 = none ∧
      getIssuerName8 (.ok tenChars) 10 = some (.ok (tenChars.toMemory, 10)) ∧
      getIssuerName16 (.ok tenChars) 10 unclearedPool = some (.ok (unclearedPool 10, 20)) ∧
      getIssuerName8 (.ok tenChars) 11 = none ∧ tenChars.chars.length = 10 := by
    decide +kernel
  obtain ⟨subject, issuer, wide, behind, length⟩ := evaluated
  rw [subject, wide, issuer, behind]
  refine ⟨not_name8Law_none, fun law => ?_, fun law => ?_, not_name8Law_none⟩
  · have isSize := ((name8Law_iff tenChars.holds_toMemory).mp law).2
    omega
  · have bound := ((name16Law_iff tenChars.holds_toMemory).mp law).1.lt_length
    rw [List.length_map, length] at bound
    exact absurd bound (by decide)

end Dfci
